import DotChain.Heap.Basic

/-!
# Equality of values

Values are equal when they look alike all the way down: lists by their items, objects by their type
names and fields. A pair of containers that is already being compared is taken for equal, so values
that unfold alike without end are equal too. Floats are equal when they have the same pattern or the
same value, and host objects when they are the same one.
-/

namespace DotChain

namespace Heap

/-- The number of pairs of containers that are not among the open pairs. -/
def unopenedPairs (heap : Heap) (opened : List (Container × Container)) : Nat :=
  ((heap.containers.flatMap fun a => heap.containers.map fun b => (a, b)).filter
    (· ∉ opened)).length

/-- Opening a pair of containers leaves fewer unopened. -/
theorem unopenedPairs_cons_lt {heap : Heap} {opened : List (Container × Container)}
    {a b : Container} (left : heap.holds a = true) (right : heap.holds b = true)
    (closed : (a, b) ∉ opened) :
    heap.unopenedPairs ((a, b) :: opened) < heap.unopenedPairs opened := by
  unfold unopenedPairs
  generalize pairs : (heap.containers.flatMap fun a => heap.containers.map fun b => (a, b)) = all
  have member : (a, b) ∈ all := by
    subst pairs
    simp [mem_containers_iff, left, right]
  have same : all.filter (· ∉ (a, b) :: opened) =
      (all.filter (· ∉ opened)).filter (· ≠ (a, b)) := by
    rw [List.filter_filter]
    congr 1
    funext other
    simp [Bool.and_comm]
  rw [same]
  refine List.length_filter_lt_length_iff_exists.mpr ⟨(a, b), ?_, by simp⟩
  simp [member, closed]

/-- Equality of values while the given pairs of containers are taken for equal. -/
def equalIn (heap : Heap) (opened : List (Container × Container)) : Value → Value → Bool
  | .float x, .float y => x == y || x.sameNumber y
  | .list a, .list b =>
    if a == b || opened.contains (.list a, .list b) then true
    else if heap.holds (.list a) && heap.holds (.list b) then
      (heap.items a).length == (heap.items b).length &&
        ((heap.items a).zip (heap.items b)).all fun (x, y) =>
          heap.equalIn ((.list a, .list b) :: opened) x y
    else (heap.items a).length == (heap.items b).length
  | .object a, .object b =>
    if a == b || opened.contains (.object a, .object b) then true
    else if heap.holds (.object a) && heap.holds (.object b) then
      (heap.object a).typeName == (heap.object b).typeName &&
        (heap.entries a).length == (heap.entries b).length &&
          ((heap.entries a).zip (heap.entries b)).all fun ((name, x), (other, y)) =>
            name == other && heap.equalIn ((.object a, .object b) :: opened) x y
    else (heap.object a).typeName == (heap.object b).typeName &&
      (heap.entries a).length == (heap.entries b).length
  | a, b => a == b
termination_by heap.unopenedPairs opened
decreasing_by
  all_goals
    simp_all only [Bool.or_eq_true, Bool.and_eq_true, not_or]
    exact unopenedPairs_cons_lt (by simp_all) (by simp_all) (by simp_all)

/-- Equality of values. -/
def equal (heap : Heap) (a b : Value) : Bool := heap.equalIn [] a b

/-- Equality of values and of their types. -/
def equalTyped (heap : Heap) (a b : TypedValue) : Bool := heap.equal a.value b.value && a.type == b.type

/-- Whether a list has an item that equals a value. -/
def listContains (heap : Heap) (id : ListId) (value : Value) : Bool :=
  (heap.items id).any fun item => heap.equal item value

end Heap

end DotChain
