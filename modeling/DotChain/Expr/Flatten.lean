import DotChain.Expr.Render
import DotChain.Expr.Shape

/-!
# Flat chains

A chain may begin with a chain, when that one stood in parentheses. Flattening joins the two
everywhere in a tree, and changes nothing else. Main statements: `render_flatten` and `render_shape`,
neither flattening nor moving a tree changes its text.
-/

namespace DotChain.Expr

/-- Puts segments behind a head. A head that is a chain takes them as its own. -/
def joined (head : Expr) (more : List Expr) (span : Span) : Expr :=
  match head with
  | chain first tail _ => chain first (tail ++ more) span
  | head => chain head more span

mutual

/-- The same tree where no chain begins with a chain. -/
def flatten : Expr → Expr
  | literal value span => literal value span
  | property name dotted span => property name dotted span
  | reference name span => reference name span
  | indexer index span => indexer (flatten index) span
  | method name args dotted span => method name (flattenAll args) dotted span
  | assign target value span => assign (flatten target) (flatten value) span
  | chain head tail span => joined (flatten head) (flattenAll tail) span

/-- The same trees where no chain begins with a chain. -/
def flattenAll : List Expr → List Expr
  | [] => []
  | e :: rest => flatten e :: flattenAll rest

end

@[simp] theorem flattenAll_eq_map (es : List Expr) : flattenAll es = es.map flatten := by
  induction es with
  | nil => rfl
  | cons e es ih => rw [flattenAll, ih, List.map_cons]

@[simp] theorem flatten_method (name : String) (args : List Expr) (dotted : Bool) (span : Span) :
    (method name args dotted span).flatten = method name (args.map flatten) dotted span := by
  rw [flatten, flattenAll_eq_map]

@[simp] theorem flatten_chain (head : Expr) (tail : List Expr) (span : Span) :
    (chain head tail span).flatten = head.flatten.joined (tail.map flatten) span := by
  rw [flatten, flattenAll_eq_map]

/-! ## Shapes -/

@[simp] theorem shape_joined (head : Expr) (more : List Expr) (span : Span) :
    (head.joined more span).shape = head.shape.joined (more.map shape) .unplaced := by
  cases head <;> simp [joined]

/-! ## Texts -/

private theorem renderSegments_append (left right : List Expr) :
    renderSegments (left ++ right) = renderSegments left ++ renderSegments right := by
  induction left with
  | nil => simp [renderSegments]
  | cons e left ih => rw [List.cons_append, renderSegments, renderSegments, ih, String.append_assoc]

section
variable (change : Expr → Expr)

private theorem renderSegments_map {es : List Expr}
    (same : ∀ e ∈ es, (change e).renderOperand = e.renderOperand) :
    renderSegments (es.map change) = renderSegments es := by
  induction es with
  | nil => rfl
  | cons e es ih =>
    have first := same e List.mem_cons_self
    rw [renderOperand, renderOperand] at first
    rw [List.map_cons, renderSegments, renderSegments, first,
      ih fun other later => same other (List.mem_cons_of_mem _ later)]

private theorem renderArgs_map {es : List Expr}
    (same : ∀ e ∈ es, (change e).renderOperand = e.renderOperand) :
    renderArgs (es.map change) = renderArgs es := by
  induction es with
  | nil => rfl
  | cons e es ih =>
    have first := same e List.mem_cons_self
    rw [renderOperand, renderOperand] at first
    have others := ih fun other later => same other (List.mem_cons_of_mem _ later)
    cases es with
    | nil => rw [List.map_singleton, renderArgs, renderArgs, first]
    | cons next es =>
      rw [List.map_cons, List.map_cons, renderArgs, renderArgs, first, ← List.map_cons, others]

end

private theorem enclose_shape (e : Expr) (text : String) : e.shape.enclose text = e.enclose text := by
  cases e <;> simp [enclose]

private theorem enclose_joined (head : Expr) (more : List Expr) (span : Span) (text : String) :
    (head.joined more span).enclose text = text := by
  cases head <;> rfl

private theorem enclose_flatten (e : Expr) (text : String) : e.flatten.enclose text = e.enclose text := by
  cases e with
  | chain head tail span => rw [flatten_chain, enclose_joined]; rfl
  | _ => simp [flatten, enclose]

private theorem render_joined (head : Expr) (more : List Expr) (span : Span) :
    (head.joined more span).render = head.renderOperand ++ renderSegments more := by
  cases head with
  | chain first tail _ =>
    simp [joined, render, renderOperand, enclose, renderSegments_append, String.append_assoc]
  | _ => simp [joined, render, renderOperand]

/-- The text of an expression does not depend on its spans. -/
theorem render_shape (e : Expr) : e.shape.render = e.render := by
  induction e with
  | literal | property | reference => rfl
  | indexer index span ih => simp [render, ih]
  | method name args dotted span ih =>
    have same : renderArgs (args.map shape) = renderArgs args :=
      renderArgs_map shape fun arg member => by
        rw [renderOperand, renderOperand, enclose_shape, ih arg member]
    simp [render, same]
  | assign target value span ofTarget ofValue => simp [render, ofTarget, ofValue, enclose_shape]
  | chain head tail span ofHead ofTail =>
    have same : renderSegments (tail.map shape) = renderSegments tail :=
      renderSegments_map shape fun segment member => by
        rw [renderOperand, renderOperand, enclose_shape, ofTail segment member]
    simp [render, ofHead, enclose_shape, same]

/-- Flattening does not change the text of an expression. -/
theorem render_flatten (e : Expr) : e.flatten.render = e.render := by
  induction e with
  | literal | property | reference => rfl
  | indexer index span ih => simp [flatten, render, ih]
  | method name args dotted span ih =>
    have same : renderArgs (args.map flatten) = renderArgs args :=
      renderArgs_map flatten fun arg member => by
        rw [renderOperand, renderOperand, enclose_flatten, ih arg member]
    simp [render, same]
  | assign target value span ofTarget ofValue =>
    simp [flatten, render, ofTarget, ofValue, enclose_flatten]
  | chain head tail span ofHead ofTail =>
    have same : renderSegments (tail.map flatten) = renderSegments tail :=
      renderSegments_map flatten fun segment member => by
        rw [renderOperand, renderOperand, enclose_flatten, ofTail segment member]
    rw [flatten_chain, render_joined, same, renderOperand, enclose_flatten, ofHead, render]

end DotChain.Expr
