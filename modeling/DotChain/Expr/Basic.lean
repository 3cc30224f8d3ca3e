import DotChain.Literal
import DotChain.Span

/-!
# Expressions

An expression is a tree whose every node knows the source text it came from. A chain has at least
one segment: the first stands apart from the rest.
-/

namespace DotChain

/-- An expression, with the span of each node. -/
inductive Expr where
  /-- A literal value. -/
  | literal (value : Literal) (span : Span)
  /-- A property of the active context; `dotted` tells whether it stood after a point. -/
  | property (name : String) (dotted : Bool) (span : Span)
  /-- A named binding, the root or the active context. -/
  | reference (name : String) (span : Span)
  /-- An element of the active context. -/
  | indexer (index : Expr) (span : Span)
  /-- A method of the active context. -/
  | method (name : String) (args : List Expr) (dotted : Bool) (span : Span)
  /-- Stores a value in the location that a target denotes. -/
  | assign (target value : Expr) (span : Span)
  /-- Segments, each evaluated with the result of the one before it as active context. -/
  | chain (head : Expr) (tail : List Expr) (span : Span)
deriving Inhabited

namespace Expr

/-- The source text that a node came from. -/
def span : Expr → Span
  | literal _ span => span
  | property _ _ span => span
  | reference _ span => span
  | indexer _ span => span
  | method _ _ _ span => span
  | assign _ _ span => span
  | chain _ _ span => span

/-- The same node at another place. -/
def withSpan (span : Span) : Expr → Expr
  | literal value _ => literal value span
  | property name dotted _ => property name dotted span
  | reference name _ => reference name span
  | indexer index _ => indexer index span
  | method name args dotted _ => method name args dotted span
  | assign target value _ => assign target value span
  | chain head tail _ => chain head tail span

/-- The chain of a list of segments; no segments form no chain. -/
def ofSegments? (segments : List Expr) (span : Span) : Option Expr :=
  match segments with
  | [] => none
  | head :: tail => some (chain head tail span)

/-- The number of segments of a chain. -/
def segmentCount? : Expr → Option Nat
  | chain _ tail _ => some (tail.length + 1)
  | _ => none

mutual

/-- Equality of trees, spans included, where float literals are compared by value. -/
def same : Expr → Expr → Bool
  | literal a s, literal b t => a.same b && s == t
  | property a p s, property b q t => a == b && p == q && s == t
  | reference a s, reference b t => a == b && s == t
  | indexer a s, indexer b t => same a b && s == t
  | method a xs p s, method b ys q t => a == b && sameAll xs ys && p == q && s == t
  | assign a x s, assign b y t => same a b && same x y && s == t
  | chain a xs s, chain b ys t => same a b && sameAll xs ys && s == t
  | _, _ => false

/-- Equality of lists of trees. -/
def sameAll : List Expr → List Expr → Bool
  | [], [] => true
  | x :: xs, y :: ys => same x y && sameAll xs ys
  | _, _ => false

end

/-- Equality of trees but for the spans of their topmost nodes. -/
def sameKind (a b : Expr) : Bool := same (a.withSpan .unplaced) (b.withSpan .unplaced)

/-- Induction over expressions. What is shown of a list is shown of each of its members. -/
@[elab_as_elim, induction_eliminator]
theorem induct {motive : Expr → Prop}
    (literal : ∀ value span, motive (literal value span))
    (property : ∀ name dotted span, motive (property name dotted span))
    (reference : ∀ name span, motive (reference name span))
    (indexer : ∀ index span, motive index → motive (indexer index span))
    (method : ∀ name args dotted span, (∀ arg ∈ args, motive arg) →
      motive (method name args dotted span))
    (assign : ∀ target value span, motive target → motive value → motive (assign target value span))
    (chain : ∀ head tail span, motive head → (∀ segment ∈ tail, motive segment) →
      motive (chain head tail span))
    (e : Expr) : motive e := by
  refine @Expr.rec motive (fun es => ∀ e ∈ es, motive e)
    literal property reference indexer method assign chain ?_ ?_ e
  · intro e member
    cases member
  · intro first rest ofFirst ofRest e member
    rcases List.mem_cons.mp member with rfl | later
    · exact ofFirst
    · exact ofRest e later

end Expr

end DotChain
