import DotChain.Expr.Shape

/-!
# Parts of expressions

The parts of an expression are the expression itself and the parts of its children.
-/

namespace DotChain.Expr

/-- The nodes directly below a node, in the order of the source text. -/
def children : Expr → List Expr
  | literal _ _ | property _ _ _ | reference _ _ => []
  | indexer index _ => [index]
  | method _ args _ _ => args
  | assign target value _ => [target, value]
  | chain head tail _ => head :: tail

/-- The nodes of an expression. -/
inductive HasPart : Expr → Expr → Prop where
  | self (e : Expr) : HasPart e e
  | inside {e child part : Expr} (member : child ∈ e.children) (within : HasPart child part) :
    HasPart e part

/-- Whether a node is one that stands by itself in a source text: neither an assignment nor a chain. -/
def IsPrimary : Expr → Prop
  | assign _ _ _ | chain _ _ _ => False
  | _ => True

/-- The same node as it is read where no point stands before it. -/
def undotted : Expr → Expr
  | property name _ span => property name false span
  | method name args _ span => method name args false span
  | e => e

@[simp] theorem span_mapSpan (f : Span → Span) (e : Expr) : (e.mapSpan f).span = f e.span := by
  cases e <;> rfl

end DotChain.Expr
