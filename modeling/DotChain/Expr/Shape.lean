import DotChain.Expr.Basic

/-!
# Shapes of expressions

The spans of a tree can be listed, and changed all at once. What two trees have in common when they
differ in nothing but their spans is their shape: the tree with every span set aside.
-/

namespace DotChain.Expr

/-! ## Lists of spans -/

mutual

/-- The spans of all nodes of a tree. -/
def spans : Expr → List Span
  | literal _ span => [span]
  | property _ _ span => [span]
  | reference _ span => [span]
  | indexer index span => span :: spans index
  | method _ args _ span => span :: spansAll args
  | assign target value span => span :: (spans target ++ spans value)
  | chain head tail span => span :: (spans head ++ spansAll tail)

/-- The spans of all nodes of several trees. -/
def spansAll : List Expr → List Span
  | [] => []
  | e :: rest => spans e ++ spansAll rest

end

theorem span_mem_spans (e : Expr) : e.span ∈ e.spans := by
  cases e <;> simp [span, spans]

@[simp] theorem spansAll_eq_flatMap (es : List Expr) : spansAll es = es.flatMap spans := by
  induction es with
  | nil => rfl
  | cons e es ih => rw [spansAll, ih, List.flatMap_cons]

/-! ## Trees without spans -/

mutual

/-- The same tree with every span replaced by its image. -/
def mapSpan (f : Span → Span) : Expr → Expr
  | literal value span => literal value (f span)
  | property name dotted span => property name dotted (f span)
  | reference name span => reference name (f span)
  | indexer index span => indexer (mapSpan f index) (f span)
  | method name args dotted span => method name (mapSpans f args) dotted (f span)
  | assign target value span => assign (mapSpan f target) (mapSpan f value) (f span)
  | chain head tail span => chain (mapSpan f head) (mapSpans f tail) (f span)

/-- The same trees with every span replaced by its image. -/
def mapSpans (f : Span → Span) : List Expr → List Expr
  | [] => []
  | e :: rest => mapSpan f e :: mapSpans f rest

end

@[simp] theorem mapSpans_eq_map (f : Span → Span) (es : List Expr) :
    mapSpans f es = es.map (mapSpan f) := by
  induction es with
  | nil => rfl
  | cons e es ih => rw [mapSpans, ih, List.map_cons]

/-- The tree without its spans. -/
def shape (e : Expr) : Expr := e.mapSpan fun _ => .unplaced

@[simp] theorem shape_literal (value : Literal) (span : Span) :
    (literal value span).shape = literal value .unplaced := rfl

@[simp] theorem shape_property (name : String) (dotted : Bool) (span : Span) :
    (property name dotted span).shape = property name dotted .unplaced := rfl

@[simp] theorem shape_reference (name : String) (span : Span) :
    (reference name span).shape = reference name .unplaced := rfl

@[simp] theorem shape_indexer (index : Expr) (span : Span) :
    (indexer index span).shape = indexer index.shape .unplaced := rfl

@[simp] theorem shape_method (name : String) (args : List Expr) (dotted : Bool) (span : Span) :
    (method name args dotted span).shape = method name (args.map shape) dotted .unplaced := by
  rw [shape, mapSpan, mapSpans_eq_map]
  rfl

@[simp] theorem shape_assign (target value : Expr) (span : Span) :
    (assign target value span).shape = assign target.shape value.shape .unplaced := rfl

@[simp] theorem shape_chain (head : Expr) (tail : List Expr) (span : Span) :
    (chain head tail span).shape = chain head.shape (tail.map shape) .unplaced := by
  rw [shape, mapSpan, mapSpans_eq_map]
  rfl

end DotChain.Expr
