import DotChain.Heap.Basic
import DotChain.Text.Quoted

/-!
# Values in words

A value is displayed for a user and outlined for inspection. Assignments can make a container reach itself, so
both keep the containers that they are inside, and put a mark in place of one that occurs inside itself. The
containers that a container is inside are an argument, so that they are the same again when it is left.
-/

namespace DotChain

namespace Heap

/-- What stands in place of a container that refers back. -/
def cycleMark : String := "<cycle>"

/-- What stands for a container inside the open ones: a mark if it is one of them, otherwise its content. -/
def descend (opened : List Container) (container : Container) (content : container ∉ opened → String) : String :=
  if inside : container ∈ opened then cycleMark else content inside

/-- What a user sees of a value inside the given open containers. -/
def displayIn (heap : Heap) (opened : List Container) : Value → String
  | .null => "null"
  | .bool value => toString value
  | .int value => toString value.toInt
  | .float value => Binary64.Form.display.write value
  | .text value => value
  | .list id => descend opened (.list id) fun _ =>
    let items := (heap.items id).attach.map fun item => heap.displayIn (.list id :: opened) item.val
    "[" ++ ", ".intercalate items ++ "]"
  | .object id => descend opened (.object id) fun _ =>
    let fields := (heap.entries id).attach.map fun field =>
      field.val.1 ++ ": " ++ heap.displayIn (.object id :: opened) field.val.2
    "\x7b" ++ ", ".intercalate fields ++ "\x7d"
  | .host id => "<" ++ (heap.card id).typeName ++ ">"
termination_by heap.unopened opened
decreasing_by
  · exact unopened_cons_lt (holds_of_mem_items item.property) ‹_›
  · exact unopened_cons_lt (holds_of_mem_entries field.property) ‹_›

/-- The structure of a value inside the given open containers, for inspection. -/
def outlineIn (heap : Heap) (opened : List Container) : Value → String
  | .null => "Null"
  | .bool value => s!"Bool({value})"
  | .int value => s!"Int({value.toInt})"
  | .float value => s!"Float({Binary64.Form.display.write value})"
  | .text value => s!"Str({Text.escaped value})"
  | .list id => descend opened (.list id) fun _ =>
    let items := (heap.items id).attach.map fun item => heap.outlineIn (.list id :: opened) item.val
    "[" ++ ", ".intercalate items ++ "]"
  | .object id => descend opened (.object id) fun _ =>
    let fields := (heap.entries id).attach.map fun field =>
      Text.escaped field.val.1 ++ ": " ++ heap.outlineIn (.object id :: opened) field.val.2
    "\x7b" ++ ", ".intercalate fields ++ "\x7d"
  | .host id => s!"Host({(heap.card id).outline})"
termination_by heap.unopened opened
decreasing_by
  · exact unopened_cons_lt (holds_of_mem_items item.property) ‹_›
  · exact unopened_cons_lt (holds_of_mem_entries field.property) ‹_›

/-- What a user sees of a value. -/
def display (heap : Heap) (value : Value) : String := heap.displayIn [] value

/-- The structure of a value, for inspection. -/
def outline (heap : Heap) (value : Value) : String := heap.outlineIn [] value

/-- What a user sees of a value and its type. -/
def displayTyped (heap : Heap) (typed : TypedValue) : String :=
  heap.display typed.value ++ " (" ++ typed.type.describe ++ ")"

section
variable (heap : Heap) (opened : List Container)

theorem displayIn_list (id : ListId) : heap.displayIn opened (.list id) =
    if .list id ∈ opened then cycleMark
    else "[" ++ ", ".intercalate ((heap.items id).map (heap.displayIn (.list id :: opened))) ++ "]" := by
  rw [displayIn, descend, List.attach_map_val]
  rfl

theorem displayIn_object (id : ObjectId) : heap.displayIn opened (.object id) =
    if .object id ∈ opened then cycleMark
    else "\x7b" ++ ", ".intercalate ((heap.entries id).map fun field =>
      field.1 ++ ": " ++ heap.displayIn (.object id :: opened) field.2) ++ "\x7d" := by
  have fields := @List.attach_map_val _ _ (heap.entries id) fun field =>
    field.1 ++ ": " ++ heap.displayIn (.object id :: opened) field.2
  rw [displayIn, descend, fields]
  rfl

theorem outlineIn_list (id : ListId) : heap.outlineIn opened (.list id) =
    if .list id ∈ opened then cycleMark
    else "[" ++ ", ".intercalate ((heap.items id).map (heap.outlineIn (.list id :: opened))) ++ "]" := by
  rw [outlineIn, descend, List.attach_map_val]
  rfl

theorem outlineIn_object (id : ObjectId) : heap.outlineIn opened (.object id) =
    if .object id ∈ opened then cycleMark
    else "\x7b" ++ ", ".intercalate ((heap.entries id).map fun field =>
      Text.escaped field.1 ++ ": " ++ heap.outlineIn (.object id :: opened) field.2) ++ "\x7d" := by
  have fields := @List.attach_map_val _ _ (heap.entries id) fun field =>
    Text.escaped field.1 ++ ": " ++ heap.outlineIn (.object id :: opened) field.2
  rw [outlineIn, descend, fields]
  rfl

end

end Heap

end DotChain
