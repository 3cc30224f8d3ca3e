import DotChain.Expr.Basic

/-!
# Heights of expressions

The height of a tree is how many nodes stand on its longest way from the root to a leaf.
-/

namespace DotChain.Expr

mutual

/-- The number of nodes on the longest way down. -/
def height : Expr → Nat
  | literal _ _ => 1
  | property _ _ _ => 1
  | reference _ _ => 1
  | indexer index _ => height index + 1
  | method _ args _ _ => heights args + 1
  | assign target value _ => max (height target) (height value) + 1
  | chain head tail _ => max (height head) (heights tail) + 1

/-- The greatest height among several trees; none have height 0. -/
def heights : List Expr → Nat
  | [] => 0
  | e :: rest => max (height e) (heights rest)

end

theorem height_pos (e : Expr) : 0 < e.height := by
  cases e <;> simp [height]

theorem height_le_heights {e : Expr} {es : List Expr} (member : e ∈ es) : e.height ≤ heights es := by
  induction es with
  | nil => cases member
  | cons first rest ih =>
    rw [heights]
    rcases List.mem_cons.mp member with rfl | later
    · exact Nat.le_max_left _ _
    · exact Nat.le_trans (ih later) (Nat.le_max_right _ _)

theorem heights_concat (es : List Expr) (last : Expr) :
    heights (es ++ [last]) = max (heights es) last.height := by
  induction es with
  | nil => simp [heights]
  | cons first rest ih => rw [List.cons_append, heights, heights, ih, Nat.max_assoc]

end DotChain.Expr
