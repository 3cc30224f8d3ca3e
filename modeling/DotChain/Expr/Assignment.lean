import DotChain.Expr.Basic

/-!
# Assignments in expressions

Whether an assignment stands anywhere in a tree. Only an assignment makes an evaluation store something.
-/

namespace DotChain.Expr

mutual

/-- Whether a tree has an assignment in it. -/
def assigns : Expr → Bool
  | literal _ _ => false
  | property _ _ _ => false
  | reference _ _ => false
  | indexer index _ => assigns index
  | method _ args _ _ => assignsAny args
  | assign _ _ _ => true
  | chain head tail _ => assigns head || assignsAny tail

/-- Whether one of several trees has an assignment in it. -/
def assignsAny : List Expr → Bool
  | [] => false
  | e :: rest => assigns e || assignsAny rest

end

@[simp] theorem assignsAny_eq_any (es : List Expr) : assignsAny es = es.any assigns := by
  induction es with
  | nil => rfl
  | cons e es ih => rw [assignsAny, ih, List.any_cons]

/-- An assignment in an argument is one in the call. -/
theorem assigns_of_arg {arg : Expr} {args : List Expr} (member : arg ∈ args) {name : String}
    {dotted : Bool} {span : Span} (inside : arg.assigns = true) :
    (method name args dotted span).assigns = true := by
  rw [assigns, assignsAny_eq_any, List.any_eq_true]
  exact ⟨arg, member, inside⟩

/-- An assignment in a segment is one in the chain. -/
theorem assigns_of_segment {segment head : Expr} {tail : List Expr} (member : segment ∈ head :: tail)
    {span : Span} (inside : segment.assigns = true) : (chain head tail span).assigns = true := by
  rw [assigns, assignsAny_eq_any, ← List.any_cons, List.any_eq_true]
  exact ⟨segment, member, inside⟩

/-- No assignment in a call is none in an argument. -/
theorem free_of_arg {arg : Expr} {args : List Expr} {name : String} {dotted : Bool} {span : Span}
    (free : (method name args dotted span).assigns = false) (member : arg ∈ args) :
    arg.assigns = false := by
  refine Bool.eq_false_iff.mpr fun inside => ?_
  rw [assigns_of_arg member inside] at free
  cases free

/-- No assignment in a chain is none in a segment. -/
theorem free_of_segment {segment head : Expr} {tail : List Expr} {span : Span}
    (free : (chain head tail span).assigns = false) (member : segment ∈ head :: tail) :
    segment.assigns = false := by
  refine Bool.eq_false_iff.mpr fun inside => ?_
  rw [assigns_of_segment member inside] at free
  cases free

end DotChain.Expr
