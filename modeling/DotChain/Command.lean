import DotChain.Diagnostic
import DotChain.Expr.Parser
import DotChain.Expr.Render
import DotChain.Heap.Document
import DotChain.Json.Reader
import DotChain.Json.Writer
import DotChain.Meaning
import DotChain.Text.Blank

/-!
# Commands

What the command line offers: to evaluate an expression on a document, to render an expression, and
to store a value in a document. A command that fails reports the source text that is to blame.
-/

namespace DotChain

/-- Why a command failed. -/
inductive CommandError where
  | malformed (error : SyntaxError)
  | failed (failure : Failure)
  | unreadableRoot
deriving DecidableEq

namespace CommandError

/-- What a user is told. -/
def message : CommandError → String
  | malformed error => error.message
  | failed failure => failure.message
  | unreadableRoot => "invalid root document"

/-- The place in the source text to blame, if there is one. -/
def span : CommandError → Option Span
  | malformed error => some error.span
  | failed failure => failure.span
  | unreadableRoot => none

end CommandError

/-- Why a command failed, and the source text that is to blame. -/
structure Report where
  source : String
  error : CommandError
deriving DecidableEq

/-- A report as a user sees it. -/
def Report.render (report : Report) : String :=
  let text := Diagnostic.render report.source report.error.message report.error.span
  String.ofList (Text.trimEnd text.toList)

namespace Command

/-- What a command prints, and the counts of the evaluation if there was one. -/
structure Output where
  text : String
  counters : Option Counters

/-- Reads a source text. -/
def read (source : String) : Except Report Phrase :=
  match Phrase.read source with
  | .ok phrase => .ok phrase
  | .error error => .error ⟨source, .malformed error⟩

/-- The document of a text; null, if there is no text. -/
def readRoot (source : String) : Option String → Except Report Json
  | none => .ok .null
  | some text =>
    match Json.read? text with
    | some document => .ok document
    | none => .error ⟨source, .unreadableRoot⟩

/-- The state in which an evaluation on a document begins. -/
def start (document : Json) : State Unit :=
  let (value, heap) := Heap.empty.load document
  .initial (heap.typed value) .standard ⟨heap, ()⟩

/-- Runs a computation for which a source text is to blame. -/
def run {α : Type} (source : String) (action : Eval Unit α) (state : State Unit) :
    Except Report (α × State Unit) :=
  match action.outcome state with
  | (.ok value, final) => .ok (value, final)
  | (.error failure, _) => .error ⟨source, .failed failure⟩

/-- Shows the value of an expression and its type. -/
def eval (source : String) (root : Option String) : Except Report Output := do
  let phrase ← read source
  let document ← readRoot source root
  let (value, final) ← run source phrase.tree.evaluate (start document)
  return ⟨final.heap.displayTyped value, some final.counters⟩

/-- Shows an expression as it is understood. -/
def render (source : String) : Except Report Output := do
  let phrase ← read source
  return ⟨phrase.tree.render, none⟩

/-- The document in which the value of an operand is stored in the location of a target. The operand
is evaluated first. -/
def update (target operand : Phrase) (document : Json) : Except Report (Json × Counters) := do
  let (value, state) ← run operand.source operand.tree.evaluate (start document)
  let (_, final) ← run target.source (target.tree.store value) state
  return (final.heap.document final.root.value, final.counters)

/-- Shows the document in which the value of one expression is stored in the location of another. -/
def set (target operand root : String) : Except Report Output := do
  let location ← read target
  let source ← read operand
  let document ← readRoot target (some root)
  let (updated, counters) ← update location source document
  return ⟨updated.write, some counters⟩

/-- With texts that can be read, setting is updating. -/
theorem set_of_read {target operand root : String} {location value : Expr} {document : Json}
    (parsed : Expr.parse target = .ok location) (parsedOperand : Expr.parse operand = .ok value)
    (given : Json.read? root = some document) :
    set target operand root = (fun changed => ⟨changed.1.write, some changed.2⟩) <$>
      update ⟨target, location⟩ ⟨operand, value⟩ document := by
  simp only [set, read, Phrase.read, parsed, parsedOperand, Except.map, readRoot, given]
  rfl

end Command

end DotChain
