import DotChain.Span
import DotChain.Text.Offset

/-!
# Reports on a source text

A report names what is wrong and shows the line of the source where the span starts, with marks
below the characters that the span covers. Columns are counted in characters. A span that ends in a
later line is marked up to the end of the first; an empty one is marked once.
-/

namespace DotChain.Diagnostic

/-- A line of a source text with a part of it marked. -/
structure Excerpt where
  line : List Char
  /-- The number of characters in front of the marks. -/
  column : Nat
  /-- The number of marks. -/
  width : Nat

/-- The characters at the front of a text that belong to its first line. -/
def firstLine (text : List Char) : List Char := text.takeWhile (· ≠ '\n')

/-- The characters at the end of a text that belong to its last line. -/
def lastLine (text : List Char) : List Char := (firstLine text.reverse).reverse

/-- The line in which a span starts. The span is first moved into the source; there is no line if
one of its ends then falls inside a character. -/
def Excerpt.of? (source : List Char) (span : Span) : Option Excerpt :=
  let size := Text.bytes source
  let start := min span.start size
  let stop := min (max span.stop start) size
  match Text.splitAt? start source with
  | none => none
  | some (before, after) =>
    match Text.splitAt? (stop - start) after with
    | none => none
    | some (covered, _) => some
        { line := lastLine before ++ firstLine after
          column := (lastLine before).length
          width := max (firstLine covered).length 1 }

/-- An excerpt as lines of a report. -/
def Excerpt.render (excerpt : Excerpt) : String :=
  "  |\n  | " ++ String.ofList excerpt.line ++ "\n  | " ++
    String.ofList (List.replicate excerpt.column ' ' ++ List.replicate excerpt.width '^') ++ "\n"

/-- The report of a message, with an excerpt of the source if there is one. -/
def render (source message : String) (span : Option Span) : String :=
  "error: " ++ message ++ "\n" ++
    match span.bind (Excerpt.of? source.toList) with
    | some excerpt => excerpt.render
    | none => ""

end DotChain.Diagnostic
