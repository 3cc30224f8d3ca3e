import DotChain.Heap.Basic

/-!
# Pictures of values

Assignments can make a container reach itself. The picture of a value is the finite tree that is
seen from it when every way down stops at a container that it is already inside. A style says how a
picture is written out.
-/

namespace DotChain

/-- A value with everything that it holds. -/
inductive Picture where
  | literal (value : Literal)
  | list (items : List Picture)
  | object (fields : List (String × Picture))
  | host (card : HostCard)
  /-- A container that refers back to one of those it is inside. -/
  | cycle

namespace Heap

/-- The picture of a value inside the given open containers. -/
def pictureIn (heap : Heap) (opened : List Container) : Value → Picture
  | .null => .literal .null
  | .bool value => .literal (.bool value)
  | .int value => .literal (.int value)
  | .float value => .literal (.float value)
  | .text value => .literal (.text value)
  | .list id =>
    if .list id ∈ opened then .cycle
    else .list ((heap.items id).attach.map fun item => heap.pictureIn (.list id :: opened) item.val)
  | .object id =>
    if .object id ∈ opened then .cycle
    else .object ((heap.entries id).attach.map fun field =>
      (field.val.1, heap.pictureIn (.object id :: opened) field.val.2))
  | .host id => .host (heap.card id)
termination_by heap.unopened opened
decreasing_by
  · exact unopened_cons_lt (holds_of_mem_items item.property) ‹_›
  · exact unopened_cons_lt (holds_of_mem_entries field.property) ‹_›

/-- The picture of a value. -/
def picture (heap : Heap) (value : Value) : Picture := heap.pictureIn [] value

section
variable (heap : Heap) (opened : List Container)

theorem pictureIn_literal (value : Literal) : heap.pictureIn opened value.typed.value = .literal value := by
  cases value <;> simp only [Literal.typed, TypedValue.null, pictureIn]

theorem pictureIn_list (id : ListId) : heap.pictureIn opened (.list id) =
    if .list id ∈ opened then .cycle
    else .list ((heap.items id).map (heap.pictureIn (.list id :: opened))) := by
  rw [pictureIn, List.attach_map_val]

theorem pictureIn_object (id : ObjectId) : heap.pictureIn opened (.object id) =
    if .object id ∈ opened then .cycle
    else .object (Entries.mapValues (heap.pictureIn (.object id :: opened)) (heap.entries id)) := by
  have fields := @List.attach_map_val _ _ (heap.entries id) fun field =>
    (field.1, heap.pictureIn (.object id :: opened) field.2)
  rw [pictureIn, fields]
  rfl

theorem pictureIn_host (id : HostId) : heap.pictureIn opened (.host id) = .host (heap.card id) := by
  rw [pictureIn]

end

end Heap

/-- A way of writing values out. -/
structure Style (α : Type) where
  literal : Literal → α
  host : HostCard → α
  list : List α → α
  object : List (String × α) → α
  /-- What stands in place of a container inside itself. -/
  cycle : α

namespace Picture

variable {α : Type}

mutual

/-- A picture written out in a style. -/
def written (style : Style α) : Picture → α
  | literal value => style.literal value
  | list items => style.list (writtenItems style items)
  | object fields => style.object (writtenFields style fields)
  | host card => style.host card
  | cycle => style.cycle

/-- Items written out in a style. -/
def writtenItems (style : Style α) : List Picture → List α
  | [] => []
  | item :: rest => written style item :: writtenItems style rest

/-- Named items written out in a style. -/
def writtenFields (style : Style α) : List (String × Picture) → List (String × α)
  | [] => []
  | (name, item) :: rest => (name, written style item) :: writtenFields style rest

end

@[simp] theorem writtenItems_eq_map (style : Style α) (items : List Picture) :
    writtenItems style items = items.map (written style) := by
  induction items with
  | nil => rfl
  | cons item rest ih => rw [writtenItems, ih, List.map_cons]

@[simp] theorem writtenFields_eq_mapValues (style : Style α) (fields : List (String × Picture)) :
    writtenFields style fields = Entries.mapValues (written style) fields := by
  induction fields with
  | nil => rfl
  | cons field rest ih =>
    obtain ⟨name, item⟩ := field
    rw [writtenFields, ih, Entries.mapValues_cons]

end Picture

end DotChain
