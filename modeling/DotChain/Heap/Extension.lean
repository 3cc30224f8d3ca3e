import DotChain.Heap.Basic

/-!
# Extensions of a heap

A heap extends another when every container that was given out there still has the same content. Giving
out new handles extends a heap; the new handle was not given out before and has the content asked for.
-/

namespace DotChain.Heap

/-- Every container of an earlier heap is one of a later heap, with the same content. -/
structure Extends (before after : Heap) : Prop where
  holds {container : Container} : before.holds container = true → after.holds container = true
  items {id : ListId} : before.holds (.list id) = true → after.items id = before.items id
  object {id : ObjectId} : before.holds (.object id) = true → after.object id = before.object id

namespace Extends

theorem refl (heap : Heap) : heap.Extends heap := ⟨id, fun _ => rfl, fun _ => rfl⟩

theorem trans {before middle after : Heap} (first : before.Extends middle)
    (second : middle.Extends after) : before.Extends after where
  holds held := second.holds (first.holds held)
  items held := (second.items (first.holds held)).trans (first.items held)
  object held := (second.object (first.holds held)).trans (first.object held)

end Extends

variable (heap : Heap)

/-! ## New lists -/

theorem holds_newList (items : List Value) (container : Container) :
    (heap.newList items).2.holds container = true ↔
      heap.holds container = true ∨ container = .list (heap.newList items).1 := by
  cases container with
  | list id =>
    obtain ⟨index⟩ := id
    simp only [newList, holds, Array.size_push, decide_eq_true_eq, Container.list.injEq, ListId.mk.injEq]
    omega
  | object id => exact (or_iff_left (by simp)).symm

theorem not_holds_newList (items : List Value) : heap.holds (.list (heap.newList items).1) = false := by
  simp [newList, holds]

theorem items_newList (items : List Value) :
    (heap.newList items).2.items (heap.newList items).1 = items := by
  simp [newList, Heap.items]

theorem extends_newList (items : List Value) : heap.Extends (heap.newList items).2 where
  holds held := (holds_newList heap items _).mpr (.inl held)
  items {id} held := by
    have inside : id.index < heap.lists.size := by simpa [holds] using held
    have other : id.index ≠ heap.lists.size := Nat.ne_of_lt inside
    simp [newList, Heap.items, Array.getElem?_push, other]
  object _ := rfl

/-! ## New objects -/

theorem holds_newObject (content : Object) (container : Container) :
    (heap.newObject content).2.holds container = true ↔
      heap.holds container = true ∨ container = .object (heap.newObject content).1 := by
  cases container with
  | list id => exact (or_iff_left (by simp)).symm
  | object id =>
    obtain ⟨index⟩ := id
    simp only [newObject, holds, Array.size_push, decide_eq_true_eq, Container.object.injEq,
      ObjectId.mk.injEq]
    omega

theorem not_holds_newObject (content : Object) :
    heap.holds (.object (heap.newObject content).1) = false := by
  simp [newObject, holds]

theorem object_newObject (content : Object) :
    (heap.newObject content).2.object (heap.newObject content).1 = content := by
  simp [newObject, Heap.object]

theorem extends_newObject (content : Object) : heap.Extends (heap.newObject content).2 where
  holds held := (holds_newObject heap content _).mpr (.inl held)
  items _ := rfl
  object {id} held := by
    have inside : id.index < heap.objects.size := by simpa [holds] using held
    have other : id.index ≠ heap.objects.size := Nat.ne_of_lt inside
    simp [newObject, Heap.object, Array.getElem?_push, other]

end DotChain.Heap
