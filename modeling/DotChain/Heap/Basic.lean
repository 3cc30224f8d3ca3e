import DotChain.Table
import DotChain.Value

/-!
# The heap

The heap holds the contents of all lists and objects, and what the application tells about its own
objects. Reads of a handle that was never given out see an empty content.
-/

namespace DotChain

/-- A property of an object. -/
structure Field where
  value : Value
  writable : Bool
  /-- Reported instead of the type of the value, if there is one. -/
  declared : Option StaticType
deriving DecidableEq

/-- A field that anyone may write, without a declared type. -/
def Field.plain (value : Value) : Field := ⟨value, true, none⟩

/-- The content of an object. -/
structure Object where
  typeName : Option String
  fields : Table Field
deriving Inhabited

/-- What an application tells about one of its objects, for as long as it lives. -/
structure HostCard where
  typeName : String
  /-- How the object is shown in an outline of a value. -/
  outline : String
deriving Inhabited

/-- A handle whose content holds values. -/
inductive Container where
  | list (id : ListId)
  | object (id : ObjectId)
deriving DecidableEq

/-- A container as a value. -/
def Container.value : Container → Value
  | .list id => .list id
  | .object id => .object id

/-- The container that a value is, if it is one. -/
def Value.container? : Value → Option Container
  | .list id => some (.list id)
  | .object id => some (.object id)
  | _ => none

@[simp] theorem Value.container?_value (container : Container) : container.value.container? = some container := by
  cases container <;> rfl

/-- Whether two values are one list or one object. -/
def Value.sameContainer : Value → Value → Bool
  | .list a, .list b => a == b
  | .object a, .object b => a == b
  | _, _ => false

theorem Value.sameContainer_iff {value : Value} {container : Container} :
    value.sameContainer container.value = true ↔ value.container? = some container := by
  cases value <;> cases container <;> simp [sameContainer, container?, Container.value]

/-- The contents of all handles. -/
structure Heap where
  lists : Array (List Value)
  objects : Array Object
  hosts : Array HostCard
deriving Inhabited

namespace Heap

/-- The heap in which no handle was given out. -/
def empty : Heap := ⟨#[], #[], #[]⟩

/-! ## Contents -/

/-- The items of a list. -/
def items (heap : Heap) (id : ListId) : List Value := (heap.lists[id.index]?).getD []

/-- The content of an object. -/
def object (heap : Heap) (id : ObjectId) : Object := (heap.objects[id.index]?).getD ⟨none, .empty⟩

/-- The field of an object under a name. -/
def field? (heap : Heap) (id : ObjectId) (name : String) : Option Field :=
  (heap.object id).fields.get? name

/-- What the application tells about one of its objects. -/
def card (heap : Heap) (id : HostId) : HostCard := (heap.hosts[id.index]?).getD ⟨"", ""⟩

/-- The names and values of an object's fields, in ascending order of the names. -/
def entries (heap : Heap) (id : ObjectId) : List (String × Value) :=
  (heap.object id).fields.entries.map fun (name, field) => (name, field.value)

theorem ascending_entries (heap : Heap) (id : ObjectId) : Entries.Ascending (heap.entries id) :=
  (Entries.ascending_mapValues Field.value).mpr (heap.object id).fields.ascending

/-- Whether a field may be written; one that is absent may be, because writing adds it. -/
def isWritable (heap : Heap) (id : ObjectId) (name : String) : Bool :=
  match heap.field? id name with
  | some field => field.writable
  | none => true

/-! ## New contents -/

/-- Gives out the handle of a new list. -/
def newList (heap : Heap) (items : List Value) : ListId × Heap :=
  (⟨heap.lists.size⟩, { heap with lists := heap.lists.push items })

/-- Gives out the handle of a new object. -/
def newObject (heap : Heap) (content : Object) : ObjectId × Heap :=
  (⟨heap.objects.size⟩, { heap with objects := heap.objects.push content })

/-- Gives out the handle of a new host object. -/
def newHost (heap : Heap) (card : HostCard) : HostId × Heap :=
  (⟨heap.hosts.size⟩, { heap with hosts := heap.hosts.push card })

/-! ## Changes -/

/-- Changes the items of a list. -/
def updateList (heap : Heap) (id : ListId) (change : List Value → List Value) : Heap :=
  { heap with lists := heap.lists.modify id.index change }

/-- Changes the fields of an object. -/
def updateFields (heap : Heap) (id : ObjectId) (change : Table Field → Table Field) : Heap :=
  { heap with
    objects := heap.objects.modify id.index fun content =>
      { content with fields := change content.fields } }

/-- Adds an item at the end of a list. -/
def append (heap : Heap) (id : ListId) (value : Value) : Heap :=
  heap.updateList id (· ++ [value])

/-- Puts a value in place of an item; a position past the end is refused. -/
def replace? (heap : Heap) (id : ListId) (position : Nat) (value : Value) : Option Heap :=
  if position < (heap.items id).length then some (heap.updateList id (·.set position value)) else none

/-- Puts a field under a name, whatever was there. -/
def define (heap : Heap) (id : ObjectId) (name : String) (field : Field) : Heap :=
  heap.updateFields id (·.insert name field)

/-- Stores a value in a field, which keeps its other marks. An absent field is added; a field that
is not writable refuses. -/
def write? (heap : Heap) (id : ObjectId) (name : String) (value : Value) : Option Heap :=
  match heap.field? id name with
  | none => some (heap.define id name (.plain value))
  | some field =>
    if field.writable then some (heap.define id name { field with value := value }) else none

/-- A value can be stored in a field exactly if the field may be written. -/
theorem isSome_write? (heap : Heap) (id : ObjectId) (name : String) (value : Value) :
    (heap.write? id name value).isSome = heap.isWritable id name := by
  unfold write? isWritable
  cases heap.field? id name with
  | none => rfl
  | some field => by_cases writable : field.writable = true <;> simp [writable]

/-- An item can be replaced exactly at the positions of the list. -/
theorem isSome_replace? (heap : Heap) (id : ListId) (position : Nat) (value : Value) :
    (heap.replace? id position value).isSome = decide (position < (heap.items id).length) := by
  unfold replace?
  split
  · next inside => simp [inside]
  · next outside => simp [outside]

/-- A change of one list is seen there and nowhere else. -/
theorem items_updateList (heap : Heap) {id : ListId} (given : id.index < heap.lists.size)
    (other : ListId) (change : List Value → List Value) :
    (heap.updateList id change).items other =
      if id = other then change (heap.items id) else heap.items other := by
  obtain ⟨index⟩ := id
  obtain ⟨position⟩ := other
  simp only [updateList, items, Array.getElem?_modify, ListId.mk.injEq]
  split
  · next same =>
    subst same
    have inside : index < heap.lists.size := given
    simp [inside]
  · rfl

/-- A change of the fields of one object is seen there and nowhere else. -/
theorem field?_updateFields (heap : Heap) {id : ObjectId} (given : id.index < heap.objects.size)
    (other : ObjectId) (name : String) (change : Table Field → Table Field) :
    (heap.updateFields id change).field? other name =
      if id = other then (change (heap.object id).fields).get? name else heap.field? other name := by
  obtain ⟨index⟩ := id
  obtain ⟨position⟩ := other
  simp only [updateFields, field?, object, Array.getElem?_modify, ObjectId.mk.injEq]
  split
  · next same =>
    subst same
    have inside : index < heap.objects.size := given
    simp [inside]
  · rfl

/-- A change of the fields of one object is seen in its content and nowhere else. -/
theorem object_updateFields (heap : Heap) {id : ObjectId} (given : id.index < heap.objects.size)
    (other : ObjectId) (change : Table Field → Table Field) :
    (heap.updateFields id change).object other =
      if id = other then { heap.object id with fields := change (heap.object id).fields }
      else heap.object other := by
  obtain ⟨index⟩ := id
  obtain ⟨position⟩ := other
  simp only [updateFields, object, Array.getElem?_modify, ObjectId.mk.injEq]
  split
  · next same =>
    subst same
    have inside : index < heap.objects.size := given
    simp [inside]
  · rfl

theorem items_updateList_other (heap : Heap) {id other : ListId} (apart : id ≠ other)
    (change : List Value → List Value) : (heap.updateList id change).items other = heap.items other := by
  have apart : id.index ≠ other.index := fun same => apart (congrArg ListId.mk same)
  simp [updateList, items, Array.getElem?_modify, apart]

theorem object_updateFields_other (heap : Heap) {id other : ObjectId} (apart : id ≠ other)
    (change : Table Field → Table Field) :
    (heap.updateFields id change).object other = heap.object other := by
  have apart : id.index ≠ other.index := fun same => apart (congrArg ObjectId.mk same)
  simp [updateFields, object, Array.getElem?_modify, apart]

/-- A change of fields renames no type. -/
@[simp] theorem typeName_updateFields (heap : Heap) (id other : ObjectId)
    (change : Table Field → Table Field) :
    ((heap.updateFields id change).object other).typeName = (heap.object other).typeName := by
  simp only [updateFields, object, Array.getElem?_modify]
  split
  · cases heap.objects[other.index]? <;> rfl
  · rfl

/-! ## Types -/

/-- The name of the type that a value has when the program runs. -/
def typeName (heap : Heap) : Value → String
  | .null => "null"
  | .bool _ => "bool"
  | .int _ => "int"
  | .float _ => "float"
  | .text _ => "string"
  | .list _ => "list"
  | .object id => ((heap.object id).typeName).getD "object"
  | .host id => (heap.card id).typeName

/-- The type that is inferred from a value. -/
def staticType (heap : Heap) : Value → StaticType
  | .null => .null
  | .bool _ => .bool
  | .int _ => .int
  | .float _ => .float
  | .text _ => .text
  | .list _ => .list
  | .object id =>
    match (heap.object id).typeName with
    | some name => .named name
    | none => .object
  | .host id => .named (heap.card id).typeName

/-- A value with the type that is inferred from it. -/
def typed (heap : Heap) (value : Value) : TypedValue := ⟨value, heap.staticType value⟩

/-- The value of a field, with its declared type if it has one. -/
def typedField (heap : Heap) (field : Field) : TypedValue :=
  match field.declared with
  | some type => ⟨field.value, type⟩
  | none => heap.typed field.value

@[simp] theorem typedField_value (heap : Heap) (field : Field) :
    (heap.typedField field).value = field.value := by
  unfold typedField
  cases field.declared <;> rfl

/-! ## Containers -/

/-- All containers whose handles were given out. -/
def containers (heap : Heap) : List Container :=
  (List.range heap.lists.size).map (fun index => .list ⟨index⟩) ++
    (List.range heap.objects.size).map (fun index => .object ⟨index⟩)

/-- Whether the handle of a container was given out. -/
def holds (heap : Heap) : Container → Bool
  | .list id => decide (id.index < heap.lists.size)
  | .object id => decide (id.index < heap.objects.size)

theorem mem_containers_iff {heap : Heap} {container : Container} :
    container ∈ heap.containers ↔ heap.holds container = true := by
  cases container with
  | list id => cases id; simp [containers, holds]
  | object id => cases id; simp [containers, holds]

@[simp] theorem holds_updateList (heap : Heap) (id : ListId) (change : List Value → List Value)
    (container : Container) : (heap.updateList id change).holds container = heap.holds container := by
  cases container with
  | list other => simp [updateList, holds]
  | object other => rfl

@[simp] theorem holds_updateFields (heap : Heap) (id : ObjectId) (change : Table Field → Table Field)
    (container : Container) :
    (heap.updateFields id change).holds container = heap.holds container := by
  cases container with
  | list other => rfl
  | object other => simp [updateFields, holds]

theorem items_of_not_holds {heap : Heap} {id : ListId} (missing : heap.holds (.list id) = false) :
    heap.items id = [] := by
  have outside : heap.lists.size ≤ id.index := by simpa [holds] using missing
  simp [items, Array.getElem?_eq_none outside]

theorem object_of_not_holds {heap : Heap} {id : ObjectId} (missing : heap.holds (.object id) = false) :
    heap.object id = ⟨none, .empty⟩ := by
  have outside : heap.objects.size ≤ id.index := by simpa [holds] using missing
  simp [object, Array.getElem?_eq_none outside]

theorem entries_of_not_holds {heap : Heap} {id : ObjectId} (missing : heap.holds (.object id) = false) :
    heap.entries id = [] := by
  simp [entries, object_of_not_holds missing, Table.empty]

theorem field?_of_not_holds {heap : Heap} {id : ObjectId} (missing : heap.holds (.object id) = false)
    (name : String) : heap.field? id name = none := by
  rw [field?, object_of_not_holds missing]
  rfl

/-- Only lists that were given out have items. -/
theorem holds_of_mem_items {heap : Heap} {id : ListId} {item : Value} (there : item ∈ heap.items id) :
    heap.holds (.list id) = true := by
  cases held : heap.holds (.list id) with
  | true => rfl
  | false =>
    rw [items_of_not_holds held] at there
    cases there

/-- Only objects that were given out have fields. -/
theorem holds_of_mem_entries {heap : Heap} {id : ObjectId} {entry : String × Value}
    (there : entry ∈ heap.entries id) : heap.holds (.object id) = true := by
  cases held : heap.holds (.object id) with
  | true => rfl
  | false =>
    rw [entries_of_not_holds held] at there
    cases there

/-- The number of containers that are not among the open ones. -/
def unopened (heap : Heap) (opened : List Container) : Nat :=
  (heap.containers.filter (· ∉ opened)).length

/-- Opening a container leaves fewer unopened. -/
theorem unopened_cons_lt {heap : Heap} {opened : List Container} {container : Container}
    (held : heap.holds container = true) (closed : container ∉ opened) :
    heap.unopened (container :: opened) < heap.unopened opened := by
  have same : heap.containers.filter (· ∉ container :: opened) =
      (heap.containers.filter (· ∉ opened)).filter (· ≠ container) := by
    rw [List.filter_filter]
    congr 1
    funext other
    simp
  unfold unopened
  rw [same]
  refine List.length_filter_lt_length_iff_exists.mpr ⟨container, ?_, by simp⟩
  simp [mem_containers_iff, held, closed]

end Heap

end DotChain
