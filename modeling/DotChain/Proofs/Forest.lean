import Mathlib.Data.List.Flatten
import Mathlib.Data.List.Nodup
import DotChain.Heap.Document
import DotChain.Heap.Extension
import DotChain.Json.Order
import DotChain.Json.Path

/-!
# Documents in the heap

A document in the heap is a tree: no container occurs in it twice. `Shows` says which document a value
shows and which containers that takes. Main statements: `Json.Ordered.loads`, a document that is put into
the heap is shown there, on new containers; `Shows.document`, a shown document is what the value becomes
again; `Shows.frame`, what happens to other containers does not matter.
-/

namespace DotChain

/-- The document of a value without parts. -/
def Value.flat? : Value → Option Json
  | .null => some .null
  | .bool value => some (.bool value)
  | .int value => some (.int value)
  | .float value => some (if value.isFinite then .float value else .null)
  | .text value => some (.text value)
  | .list _ | .object _ | .host _ => none

theorem Literal.flat?_typed (value : Literal) : value.typed.value.flat? = some value.document := by
  cases value <;> rfl

/-- A part of a document: the value that shows it and the containers that it takes. -/
structure Part where
  value : Value
  document : Json
  taken : List Container

/-- A value shows a document and takes containers for it. -/
inductive Shows (heap : Heap) : Value → Json → List Container → Prop where
  | flat {value : Value} {document : Json} (flat : value.flat? = some document) :
    Shows heap value document []
  | array {id : ListId} {parts : List Part} (held : heap.holds (.list id) = true)
    (items : heap.items id = parts.map Part.value)
    (inside : ∀ part ∈ parts, Shows heap part.value part.document part.taken) :
    Shows heap (.list id) (.array (parts.map Part.document)) (.list id :: parts.flatMap Part.taken)
  | object {id : ObjectId} {members : List (String × Part)} (held : heap.holds (.object id) = true)
    (fields : (heap.object id).fields.entries =
      Entries.mapValues (fun part => .plain part.value) members)
    (inside : ∀ part ∈ members.map Prod.snd, Shows heap part.value part.document part.taken) :
    Shows heap (.object id) (.object (Entries.mapValues Part.document members))
      (.object id :: (members.map Prod.snd).flatMap Part.taken)

namespace Heap

/-- A container is held in a later heap as in an earlier one, with the same content. -/
structure Agrees (before after : Heap) (container : Container) : Prop where
  holds : before.holds container = true → after.holds container = true
  items {id : ListId} : container = .list id → after.items id = before.items id
  object {id : ObjectId} : container = .object id → after.object id = before.object id

theorem Extends.agrees {before after : Heap} (extension : before.Extends after) {container : Container}
    (held : before.holds container = true) : before.Agrees after container where
  holds := extension.holds
  items same := extension.items (same ▸ held)
  object same := extension.object (same ▸ held)

theorem agrees_updateList (heap : Heap) {id : ListId} (change : List Value → List Value)
    {container : Container} (other : container ≠ .list id) :
    heap.Agrees (heap.updateList id change) container where
  holds held := by rwa [holds_updateList]
  items same := items_updateList_other heap (fun equal => other (same.trans (congrArg _ equal.symm))) change
  object _ := rfl

theorem agrees_updateFields (heap : Heap) {id : ObjectId} (change : Table Field → Table Field)
    {container : Container} (other : container ≠ .object id) :
    heap.Agrees (heap.updateFields id change) container where
  holds held := by rwa [holds_updateFields]
  items _ := rfl
  object same :=
    object_updateFields_other heap (fun equal => other (same.trans (congrArg _ equal.symm))) change

end Heap

namespace Shows

variable {heap later : Heap} {value : Value} {document : Json} {taken : List Container}

/-- What a part takes is taken. -/
theorem taken_part {parts : List Part} {part : Part} (member : part ∈ parts) :
    part.taken.Sublist (parts.flatMap Part.taken) := by
  have single := (List.singleton_sublist.mpr member).flatMap Part.taken
  simpa using single

/-- Only containers that were given out are taken. -/
theorem held (shown : Shows heap value document taken) :
    ∀ container ∈ taken, heap.holds container = true := by
  induction shown with
  | flat => exact fun _ member => absurd member List.not_mem_nil
  | array held items inside ih | object held fields inside ih =>
    refine List.forall_mem_cons.mpr ⟨held, fun container member => ?_⟩
    obtain ⟨part, among, below⟩ := List.mem_flatMap.mp member
    exact ih part among container below

/-- What happens to containers that are not taken does not matter. -/
theorem frame (shown : Shows heap value document taken)
    (agrees : ∀ container ∈ taken, heap.Agrees later container) : Shows later value document taken := by
  induction shown with
  | flat flat => exact .flat flat
  | array held items inside ih =>
    obtain ⟨here, below⟩ := List.forall_mem_cons.mp agrees
    refine .array (here.holds held) ((here.items rfl).trans items) fun part member => ?_
    exact ih part member fun container among => below container ((taken_part member).mem among)
  | object held fields inside ih =>
    obtain ⟨here, below⟩ := List.forall_mem_cons.mp agrees
    refine .object (here.holds held) (by rw [here.object rfl, fields]) fun part member => ?_
    exact ih part member fun container among => below container ((taken_part member).mem among)

/-! ## What is shown -/

private theorem document_flat (flat : value.flat? = some document) (opened : List Value) :
    heap.documentIn opened value = document := by
  cases value <;> simp only [Value.flat?, Option.some.injEq, reduceCtorEq] at flat <;> subst flat <;>
    rw [Heap.documentIn]

/-- What a part takes is neither the container around it nor one of those around that. -/
private theorem part_apart {container : Container} {parts : List Part} {opened : List Container}
    (distinct : (container :: parts.flatMap Part.taken).Nodup)
    (apart : ∀ other ∈ container :: parts.flatMap Part.taken, other ∉ opened) {part : Part}
    (member : part ∈ parts) :
    part.taken.Nodup ∧ ∀ other ∈ part.taken, other ∉ container :: opened := by
  obtain ⟨outside, below⟩ := List.nodup_cons.mp distinct
  refine ⟨below.sublist (taken_part member), fun other among => ?_⟩
  have under := (taken_part member).mem among
  rw [List.mem_cons, not_or]
  exact ⟨fun same => outside (same ▸ under), apart other (List.mem_cons_of_mem _ under)⟩

/-- Inside containers that are not taken, a value becomes the document that it shows. -/
private theorem document_inside (shown : Shows heap value document taken) (distinct : taken.Nodup)
    {opened : List Container} (apart : ∀ container ∈ taken, container ∉ opened) :
    heap.documentIn (opened.map Container.value) value = document := by
  induction shown generalizing opened with
  | flat flat => exact document_flat flat _
  | @array id parts held items inside ih =>
    have closed := apart _ List.mem_cons_self
    rw [Heap.documentIn_list, if_neg closed, items, List.map_map]
    refine congrArg Json.array (List.map_congr_left fun part member => ?_)
    obtain ⟨distinct, apart⟩ := part_apart distinct apart member
    exact ih part member distinct apart
  | @object id members held fields inside ih =>
    have closed := apart _ List.mem_cons_self
    have entries : heap.entries id = Entries.mapValues Part.value members := by
      rw [Heap.entries, fields]
      exact Entries.map_mapValues _ _ members
    rw [Heap.documentIn_object, if_neg closed, entries, Entries.mapValues_mapValues]
    refine congrArg Json.object (Entries.mapValues_congr fun member among => ?_)
    have part := List.mem_map_of_mem (f := Prod.snd) among
    obtain ⟨distinct, apart⟩ := part_apart distinct apart part
    exact ih member.2 part distinct apart

/-- A shown document is what the value becomes. -/
protected theorem document (shown : Shows heap value document taken) (distinct : taken.Nodup) :
    heap.document value = document :=
  @document_inside _ _ _ _ shown distinct [] fun _ _ => List.not_mem_nil

end Shows

/-! ## Documents that are put into the heap -/

/-- Parts were put into a heap, on containers that were new. -/
structure Heap.Gains (before after : Heap) (parts : List Part) : Prop where
  extension : before.Extends after
  inside : ∀ part ∈ parts, Shows after part.value part.document part.taken
  distinct : (parts.flatMap Part.taken).Nodup
  fresh : ∀ container ∈ parts.flatMap Part.taken, before.holds container = false

namespace Heap.Gains

variable {before middle after : Heap} {part : Part} {parts : List Part}

theorem nothing (heap : Heap) : heap.Gains heap [] :=
  ⟨.refl heap, fun _ member => absurd member List.not_mem_nil, .nil,
    fun _ member => absurd member List.not_mem_nil⟩

theorem flat {value : Value} {document : Json} (flat : value.flat? = some document) (heap : Heap) :
    heap.Gains heap [⟨value, document, []⟩] := by
  refine ⟨.refl heap, ?_, .nil, fun _ member => absurd member List.not_mem_nil⟩
  exact List.forall_mem_singleton.mpr (.flat flat)

/-- Parts that are put into the heap one after the other do not meet. -/
theorem cons (first : before.Gains middle [part]) (others : middle.Gains after parts) :
    before.Gains after (part :: parts) := by
  have shown := List.forall_mem_singleton.mp first.inside
  have single : [part].flatMap Part.taken = part.taken := by simp
  have distinct := first.distinct
  have fresh := first.fresh
  rw [single] at distinct fresh
  refine ⟨first.extension.trans others.extension, List.forall_mem_cons.mpr ⟨?_, others.inside⟩, ?_, ?_⟩
  · exact shown.frame fun container among => others.extension.agrees (shown.held container among)
  · refine List.nodup_append'.mpr ⟨distinct, others.distinct, fun container among later => ?_⟩
    have held := shown.held container among
    rw [others.fresh container later] at held
    cases held
  · rw [List.flatMap_cons]
    refine List.forall_mem_append.mpr ⟨fresh, fun container later => ?_⟩
    refine Bool.eq_false_iff.mpr fun held => ?_
    have held := first.extension.holds held
    rw [others.fresh container later] at held
    cases held

/-- A new container around parts that were put into the heap. -/
theorem around (gains : before.Gains middle parts) (extension : middle.Extends after)
    {container : Container} (absent : middle.holds container = false) {value : Value} {document : Json}
    (shown : (∀ part ∈ parts, Shows after part.value part.document part.taken) →
      Shows after value document (container :: parts.flatMap Part.taken)) :
    before.Gains after [⟨value, document, container :: parts.flatMap Part.taken⟩] := by
  have taken : [(⟨value, document, container :: parts.flatMap Part.taken⟩ : Part)].flatMap Part.taken =
      container :: parts.flatMap Part.taken := by simp
  have held : ∀ other ∈ parts.flatMap Part.taken, middle.holds other = true := by
    intro other member
    obtain ⟨part, among, under⟩ := List.mem_flatMap.mp member
    exact (gains.inside part among).held other under
  refine ⟨gains.extension.trans extension, List.forall_mem_singleton.mpr (shown ?_), ?_, ?_⟩
  · intro part member
    exact (gains.inside part member).frame fun other among =>
      extension.agrees ((gains.inside part member).held other among)
  · rw [taken]
    refine List.nodup_cons.mpr ⟨fun member => ?_, gains.distinct⟩
    rw [held container member] at absent
    cases absent
  · rw [taken]
    refine List.forall_mem_cons.mpr ⟨Bool.eq_false_iff.mpr fun given => ?_, gains.fresh⟩
    rw [gains.extension.holds given] at absent
    cases absent

theorem newList (gains : before.Gains middle parts) :
    let (id, after) := middle.newList (parts.map Part.value)
    before.Gains after
      [⟨.list id, .array (parts.map Part.document), .list id :: parts.flatMap Part.taken⟩] := by
  have absent := middle.not_holds_newList (parts.map Part.value)
  refine gains.around (middle.extends_newList _) absent fun shown => ?_
  exact .array ((middle.holds_newList _ _).mpr (.inr rfl)) (middle.items_newList _) shown

theorem newObject {members : List (String × Part)} (ascending : Entries.Ascending members)
    (gains : before.Gains middle (members.map Prod.snd)) :
    let (id, after) := middle.newObject
      ⟨none, .ofList (Entries.mapValues (fun part => .plain part.value) members)⟩
    before.Gains after
      [⟨.object id, .object (Entries.mapValues Part.document members),
        .object id :: (members.map Prod.snd).flatMap Part.taken⟩] := by
  have order := (Entries.ascending_mapValues (fun part : Part => Field.plain part.value)).mpr ascending
  have absent := middle.not_holds_newObject
    ⟨none, .ofList (Entries.mapValues (fun part => .plain part.value) members)⟩
  have content := middle.object_newObject
    ⟨none, .ofList (Entries.mapValues (fun part => .plain part.value) members)⟩
  refine gains.around (middle.extends_newObject _) absent fun shown => ?_
  refine .object ((middle.holds_newObject _ _).mpr (.inr rfl)) ?_ shown
  exact (congrArg (fun object => object.fields.entries) content).trans (Table.entries_ofList order)

end Heap.Gains

/-- Whatever heap a document is put into, it is shown there on new containers. -/
def Json.Loads (document : Json) : Prop :=
  ∀ heap : Heap, ∃ taken,
    heap.Gains (heap.load document).2 [⟨(heap.load document).1, document, taken⟩]

private theorem load_items {items : List Json} (inside : ∀ item ∈ items, item.Loads) (heap : Heap) :
    ∃ parts : List Part, parts.map Part.value = (heap.loadItems items).1 ∧
      parts.map Part.document = items ∧ heap.Gains (heap.loadItems items).2 parts := by
  induction items generalizing heap with
  | nil => exact ⟨[], rfl, rfl, .nothing heap⟩
  | cons item rest ih =>
    obtain ⟨ofItem, ofRest⟩ := List.forall_mem_cons.mp inside
    obtain ⟨taken, first⟩ := ofItem heap
    obtain ⟨parts, values, documents, others⟩ := ih ofRest (heap.load item).2
    refine ⟨⟨(heap.load item).1, item, taken⟩ :: parts, ?_, ?_, first.cons others⟩
    · rw [List.map_cons, values]
      rfl
    · rw [List.map_cons, documents]

private theorem load_members {members : List (String × Json)}
    (inside : ∀ member ∈ members, member.2.Loads) (heap : Heap) :
    ∃ parts : List (String × Part),
      Entries.mapValues (fun part => Field.plain part.value) parts = (heap.loadMembers members).1 ∧
      Entries.mapValues Part.document parts = members ∧
      heap.Gains (heap.loadMembers members).2 (parts.map Prod.snd) := by
  induction members generalizing heap with
  | nil => exact ⟨[], rfl, rfl, .nothing heap⟩
  | cons member rest ih =>
    obtain ⟨name, item⟩ := member
    obtain ⟨ofItem, ofRest⟩ := List.forall_mem_cons.mp inside
    obtain ⟨taken, first⟩ := ofItem heap
    obtain ⟨parts, fields, documents, others⟩ := ih ofRest (heap.load item).2
    refine ⟨(name, ⟨(heap.load item).1, item, taken⟩) :: parts, ?_, ?_, first.cons others⟩
    · rw [Entries.mapValues_cons, fields]
      rfl
    · rw [Entries.mapValues_cons, documents]

private theorem load_flat {document : Json} (flat : document.isFlat = true) (finite : document.IsFinite)
    (heap : Heap) : ∃ value : Value, heap.load document = (value, heap) ∧ value.flat? = some document := by
  cases document with
  | null => exact ⟨.null, rfl, rfl⟩
  | bool value => exact ⟨.bool value, rfl, rfl⟩
  | int value => exact ⟨.int value, rfl, rfl⟩
  | float value =>
    have proper : value.isFinite = true := finite value List.mem_cons_self
    exact ⟨.float value, rfl, by simp [Value.flat?, proper]⟩
  | text value => exact ⟨.text value, rfl, rfl⟩
  | array items => cases flat
  | object members => cases flat

/-- A document whose members are in order and whose floats are finite is shown once it is in the heap. -/
theorem Json.Ordered.loads {document : Json} (ordered : document.Ordered) (finite : document.IsFinite) :
    document.Loads := by
  intro heap
  induction ordered generalizing heap with
  | flat flat =>
    obtain ⟨value, there, same⟩ := load_flat flat finite heap
    rw [there]
    exact ⟨[], .flat same heap⟩
  | @array items inside ih =>
    obtain ⟨parts, values, documents, gains⟩ :=
      load_items (fun item member heap => ih item member (isFinite_items finite item member) heap) heap
    have gained := gains.newList
    rw [values, documents] at gained
    exact ⟨_, gained⟩
  | @object members ascending inside ih =>
    obtain ⟨parts, fields, documents, gains⟩ :=
      load_members (fun member among heap => ih member among (isFinite_members finite member among) heap)
        heap
    have order : Entries.Ascending parts :=
      (Entries.ascending_mapValues Part.document).mp (documents ▸ ascending)
    have gained := gains.newObject order
    rw [fields, documents] at gained
    exact ⟨_, gained⟩

end DotChain
