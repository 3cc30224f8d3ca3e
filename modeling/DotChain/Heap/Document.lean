import DotChain.Heap.Display
import DotChain.Json.Basic

/-!
# Values and documents

A document becomes a value whose lists and objects are all new, with plain fields. A value becomes a document;
what a document cannot hold is written as null or as a text, and so is a container that occurs inside itself.
-/

namespace DotChain

namespace Heap

mutual

/-- Puts a document into the heap. -/
def load (heap : Heap) : Json → Value × Heap
  | .null => (.null, heap)
  | .bool value => (.bool value, heap)
  | .int value => (.int value, heap)
  | .float value => (.float value, heap)
  | .text value => (.text value, heap)
  | .array items =>
    let (values, heap) := heap.loadItems items
    let (id, heap) := heap.newList values
    (.list id, heap)
  | .object members =>
    let (fields, heap) := heap.loadMembers members
    let (id, heap) := heap.newObject ⟨none, .ofList fields⟩
    (.object id, heap)

/-- Puts the items of an array into the heap, in order. -/
def loadItems (heap : Heap) : List Json → List Value × Heap
  | [] => ([], heap)
  | item :: rest =>
    let (value, heap) := heap.load item
    let (values, heap) := heap.loadItems rest
    (value :: values, heap)

/-- Puts the members of an object into the heap, in order. -/
def loadMembers (heap : Heap) : List (String × Json) → List (String × Field) × Heap
  | [] => ([], heap)
  | (name, item) :: rest =>
    let (value, heap) := heap.load item
    let (fields, heap) := heap.loadMembers rest
    ((name, .plain value) :: fields, heap)

end

end Heap

/-- What stands in a document in place of a container that refers back. -/
def Json.cycleMark : String := "<cycle>"

namespace Heap

/-- What is open is the same list or object as one of the open values. -/
theorem any_sameContainer_iff {opened : List Value} {container : Container} :
    opened.any (·.sameContainer container.value) = true ↔ container ∈ opened.filterMap Value.container? := by
  simp only [List.any_eq_true, Value.sameContainer_iff, List.mem_filterMap]

private theorem unopened_filterMap_lt {heap : Heap} {opened : List Value} {container : Container}
    (held : heap.holds container = true) (closed : ¬ opened.any (·.sameContainer container.value) = true) :
    heap.unopened ((container.value :: opened).filterMap Value.container?) <
      heap.unopened (opened.filterMap Value.container?) := by
  rw [List.filterMap_cons_some (Value.container?_value container)]
  exact unopened_cons_lt held fun member => closed (any_sameContainer_iff.mpr member)

/-- The document of a value inside the given open containers, of which the innermost is the first. A float
that is not finite becomes null, and a host object the text that displays it. -/
def documentIn (heap : Heap) (opened : List Value) : Value → Json
  | .null => .null
  | .bool value => .bool value
  | .int value => .int value
  | .float value => if value.isFinite then .float value else .null
  | .text value => .text value
  | .list id =>
    if opened.any (·.sameContainer (.list id)) then .text Json.cycleMark
    else .array ((heap.items id).attach.map fun item => heap.documentIn (.list id :: opened) item.val)
  | .object id =>
    if opened.any (·.sameContainer (.object id)) then .text Json.cycleMark
    else .ofMembers ((heap.entries id).attach.map fun field =>
      (field.val.1, heap.documentIn (.object id :: opened) field.val.2))
  | .host id => .text (heap.display (.host id))
termination_by heap.unopened (opened.filterMap Value.container?)
decreasing_by
  · exact @unopened_filterMap_lt _ _ (.list id) (holds_of_mem_items item.property) ‹_›
  · exact @unopened_filterMap_lt _ _ (.object id) (holds_of_mem_entries field.property) ‹_›

/-- The document of a value. -/
def document (heap : Heap) (value : Value) : Json := heap.documentIn [] value

section
variable (heap : Heap) (above : List Container)

private theorem any_sameContainer_map {above : List Container} {container : Container} :
    (above.map Container.value).any (·.sameContainer container.value) = true ↔ container ∈ above := by
  have back : Value.container? ∘ Container.value = some := funext Value.container?_value
  rw [any_sameContainer_iff, List.filterMap_map, back, List.filterMap_some]

theorem documentIn_list (id : ListId) : heap.documentIn (above.map Container.value) (.list id) =
    if .list id ∈ above then .text Json.cycleMark
    else .array ((heap.items id).map (heap.documentIn ((Container.list id :: above).map Container.value))) := by
  have here : (above.map Container.value).any (·.sameContainer (.list id)) = true ↔ .list id ∈ above :=
    @any_sameContainer_map above (.list id)
  rw [documentIn, List.attach_map_val]
  by_cases inside : .list id ∈ above
  · rw [if_pos inside, if_pos (here.mpr inside)]
  · rw [if_neg inside, if_neg (mt here.mp inside)]
    rfl

theorem documentIn_object (id : ObjectId) : heap.documentIn (above.map Container.value) (.object id) =
    if .object id ∈ above then .text Json.cycleMark
    else .object (Entries.mapValues (heap.documentIn ((Container.object id :: above).map Container.value))
      (heap.entries id)) := by
  have here : (above.map Container.value).any (·.sameContainer (.object id)) = true ↔ .object id ∈ above :=
    @any_sameContainer_map above (.object id)
  have fields := @List.attach_map_val _ _ (heap.entries id) fun field =>
    (field.1, heap.documentIn (.object id :: above.map Container.value) field.2)
  have ascending := (Entries.ascending_mapValues (heap.documentIn (.object id :: above.map Container.value))).mpr
    (heap.ascending_entries id)
  rw [documentIn, fields]
  by_cases inside : .object id ∈ above
  · rw [if_pos inside, if_pos (here.mpr inside)]
  · rw [if_neg inside, if_neg (mt here.mp inside)]
    exact Json.ofMembers_of_ascending ascending

end

end Heap

end DotChain
