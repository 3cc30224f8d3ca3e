import DotChain.Access.Property
import DotChain.Proofs.Forest

/-!
# Steps in the heap

What the steps of a path read from values in the heap and store there, beside what they find in the
documents that these values show. Main statement: `Shows.store_path`, to store a value in the heap at the
end of a path is to put its document in the shown document. A step may read more than a document has,
lengths and single characters, but then nothing can be stored further down (`Value.IsEnd`).
-/

namespace DotChain

namespace Path.Step

/-- What a step reads from a value: what it leads to, a length or a character. -/
def read? (heap : Heap) : Step → Value → Option TypedValue
  | member name _, .object id => (heap.field? id name).map heap.typedField
  | member name false, other =>
    (Property.length? heap other name).map fun length => heap.typed (.ofLength length)
  | item index, .list id =>
    let items := heap.items id
    ((slot? index items.length).bind (items[·]?)).map heap.typed
  | item index, .text text =>
    let characters := text.toList
    ((slot? index characters.length).bind (characters[·]?)).map fun c =>
      heap.typed (.text (String.ofList [c]))
  | _, _ => none

/-- The heap in which a value is stored where a step leads. -/
def store? (heap : Heap) (new : Value) : Step → Value → Option Heap
  | member name _, .object id => heap.write? id name new
  | item index, .list id => (slot? index (heap.items id).length).bind (heap.replace? id · new)
  | _, _ => none

end Path.Step

/-- What several steps read, one after the other. -/
def Path.walk? (heap : Heap) : List Path.Step → TypedValue → Option TypedValue
  | [], typed => some typed
  | step :: rest, typed => (step.read? heap typed.value).bind (walk? heap rest)

/-- The heap in which a value is stored at the end of a path. -/
def Path.store? (heap : Heap) (new : Value) (path : Path) (root : TypedValue) : Option Heap :=
  (walk? heap path.lead root).bind fun parent => path.last.store? heap new parent.value

open DotChain.Path

/-! ## Dead ends -/

/-- A value below which nothing can be stored, though it may be read. -/
def Value.IsEnd : Value → Prop
  | .int _ | .text _ => True
  | _ => False

namespace Value.IsEnd

variable {heap : Heap} {value : Value} {step : Step}

theorem read (ending : value.IsEnd) {typed : TypedValue} (read : step.read? heap value = some typed) :
    typed.value.IsEnd := by
  cases value <;> simp only [IsEnd] at ending
  case int value =>
    cases step with
    | member name quoted => cases quoted <;> cases read
    | item index => cases read
  case text text =>
    cases step with
    | member name quoted =>
      cases quoted with
      | false =>
        obtain ⟨length, _, rfl⟩ := Option.map_eq_some_iff.mp read
        trivial
      | true => cases read
    | item index =>
      obtain ⟨c, _, rfl⟩ := Option.map_eq_some_iff.mp read
      trivial

theorem store (ending : value.IsEnd) (new : Value) : step.store? heap new value = none := by
  cases value <;> simp only [IsEnd] at ending <;> cases step <;> rfl

theorem walk {lead : List Step} {typed parent : TypedValue} (ending : typed.value.IsEnd)
    (walked : walk? heap lead typed = some parent) : parent.value.IsEnd := by
  induction lead generalizing typed with
  | nil =>
    obtain rfl := Option.some.inj walked
    exact ending
  | cons step rest ih =>
    obtain ⟨inner, read, walked⟩ := Option.bind_eq_some_iff.mp walked
    exact ih (ending.read read) walked

end Value.IsEnd

/-! ## One step -/

section
variable {heap later : Heap} {value : Value} {document : Json} {taken : List Container} {step : Step}

private theorem find?_flat (flat : value.flat? = some document) : step.find? document = none := by
  cases value <;> simp only [Value.flat?, Option.some.injEq, reduceCtorEq] at flat <;> subst flat <;>
    cases step <;> first | rfl | (split <;> rfl)

private theorem not_fits_flat (flat : value.flat? = some document) : ¬ step.Fits document := by
  cases value <;> simp only [Value.flat?, Option.some.injEq, reduceCtorEq] at flat <;> subst flat <;>
    cases step <;> first | exact id | (split <;> exact id)

private theorem store?_flat (flat : value.flat? = some document) (new : Value) :
    step.store? heap new value = none := by
  cases value <;> simp only [Value.flat?, reduceCtorEq] at flat <;> cases step <;> rfl

private theorem read?_flat (flat : value.flat? = some document) {typed : TypedValue}
    (read : step.read? heap value = some typed) : typed.value.IsEnd := by
  by_cases ending : value.IsEnd
  · exact ending.read read
  · cases value <;> simp only [Value.flat?, reduceCtorEq, Value.IsEnd, not_true_eq_false] at flat ending
    all_goals
      cases step with
      | member name quoted => cases quoted <;> cases read
      | item index => cases read

namespace Shows

/-- Parts beside those that are replaced are shown as before, if nothing else changed but the container
around them. -/
private theorem parts_replaced {container : Container} {front olds back : List Part}
    (distinct : (container :: (front ++ olds ++ back).flatMap Part.taken).Nodup)
    (inside : ∀ part ∈ front ++ olds ++ back, Shows heap part.value part.document part.taken)
    (agrees : ∀ other, other ≠ container → other ∉ olds.flatMap Part.taken → heap.Agrees later other)
    {new : Part} (shown : Shows later new.value new.document new.taken) :
    ∀ part ∈ front ++ new :: back, Shows later part.value part.document part.taken := by
  obtain ⟨outside, below⟩ := List.nodup_cons.mp distinct
  simp only [List.flatMap_append, List.append_assoc] at outside below
  have beside : ∀ part ∈ front ++ back, ∀ other ∈ part.taken,
      other ≠ container ∧ other ∉ olds.flatMap Part.taken := by
    intro part member other among
    have split := List.nodup_append'.mp below
    have split' := List.nodup_append'.mp split.2.1
    rcases List.mem_append.mp member with first | last
    · have under := (taken_part first).mem among
      exact ⟨fun same => outside (same ▸ List.mem_append_left _ under),
        fun inner => split.2.2 under (List.mem_append_left _ inner)⟩
    · have under := (taken_part last).mem among
      exact ⟨fun same => outside (same ▸ List.mem_append_right _ (List.mem_append_right _ under)),
        fun inner => split'.2.2 inner under⟩
  have framed : ∀ part ∈ front ++ back, Shows later part.value part.document part.taken := by
    intro part member
    have before : part ∈ front ++ olds ++ back := by
      rcases List.mem_append.mp member with first | last
      · exact List.mem_append_left _ (List.mem_append_left _ first)
      · exact List.mem_append_right _ last
    refine (inside part before).frame fun other among => ?_
    obtain ⟨apart, aside⟩ := beside part member other among
    exact agrees other apart aside
  obtain ⟨first, last⟩ := List.forall_mem_append.mp framed
  exact List.forall_mem_append.mpr ⟨first, List.forall_mem_cons.mpr ⟨shown, last⟩⟩

private theorem taken_replaced {front olds back : List Part} {new : Part}
    (fewer : new.taken.Sublist (olds.flatMap Part.taken)) :
    ((front ++ new :: back).flatMap Part.taken).Sublist
      ((front ++ olds ++ back).flatMap Part.taken) := by
  simp only [List.flatMap_append, List.flatMap_cons, List.append_assoc]
  exact (List.Sublist.refl _).append (fewer.append (List.Sublist.refl _))

/-- The place of a position in a list of parts. -/
private theorem split_position {parts : List Part} {position : Nat} {old : Part}
    (found : parts[position]? = some old) : ∃ front back, parts = front ++ [old] ++ back ∧
      ∀ {β : Type} (f : Part → β) (new : Part),
        (parts.map f).set position (f new) = (front ++ new :: back).map f := by
  obtain ⟨inside, rfl⟩ := List.getElem?_eq_some_iff.mp found
  refine ⟨parts.take position, parts.drop (position + 1), by simp, fun f new => ?_⟩
  rw [List.set_eq_take_append_cons_drop, if_pos (by simpa using inside), List.map_append, List.map_cons,
    List.map_take, List.map_drop]

/-- A part of a shown document to which a step leads: what the step reads shows it, and when that alone
comes to show another part, the whole shows the document with that part. -/
structure Hole (heap : Heap) (step : Step) (value : Value) (document : Json) (taken : List Container)
    (typed : TypedValue) (child : Json) (used : List Container) : Prop where
  read : step.read? heap value = some typed
  shown : Shows heap typed.value child used
  fewer : used.Sublist taken
  fill {later : Heap} {part : Json} {used' : List Container}
    (agrees : ∀ container, container ∉ used → heap.Agrees later container)
    (changed : Shows later typed.value part used') (fewer' : used'.Sublist used) :
    ∃ updated taken', step.put? part document = some updated ∧ Shows later value updated taken' ∧
      taken'.Sublist taken

private theorem hole_item {id : ListId} {parts : List Part} (held : heap.holds (.list id) = true)
    (items : heap.items id = parts.map Part.value)
    (inside : ∀ part ∈ parts, Shows heap part.value part.document part.taken)
    (distinct : (.list id :: parts.flatMap Part.taken).Nodup) {index : Int64} {child : Json}
    (found : (Step.item index).find? (.array (parts.map Part.document)) = some child) :
    ∃ typed used, Hole heap (.item index) (.list id) (.array (parts.map Part.document))
      (.list id :: parts.flatMap Part.taken) typed child used := by
  simp only [Step.find?, List.length_map, List.getElem?_map] at found
  obtain ⟨position, there, found⟩ := Option.bind_eq_some_iff.mp found
  obtain ⟨old, here, rfl⟩ := Option.map_eq_some_iff.mp found
  have read : (Step.item index).read? heap (.list id) = some (heap.typed old.value) := by
    simp [Step.read?, items, there, here]
  obtain ⟨front, back, rfl, replaced⟩ := split_position here
  have member : old ∈ front ++ [old] ++ back := by simp
  have outside := (List.nodup_cons.mp distinct).1
  refine ⟨heap.typed old.value, old.taken, read, inside old member,
    (taken_part member).trans (List.sublist_cons_self _ _), fun {later part used'} agrees changed fewer' => ?_⟩
  have apart : Container.list id ∉ old.taken := fun among => outside ((taken_part member).mem among)
  have container := agrees _ apart
  refine ⟨.array ((front ++ ⟨old.value, part, used'⟩ :: back).map Part.document),
    .list id :: (front ++ ⟨old.value, part, used'⟩ :: back).flatMap Part.taken, ?_, ?_, ?_⟩
  · have set := replaced Part.document ⟨old.value, part, used'⟩
    simp only [Step.put?, List.length_map, there, Option.map_some, set]
  · refine .array (container.holds held) ?_ ?_
    · rw [container.items rfl, items]
      simp
    · refine parts_replaced distinct inside (fun other _ aside => agrees other ?_) changed
      simpa using aside
  · exact (taken_replaced (by simpa using fewer')).cons_cons _

private theorem hole_member {id : ObjectId} {members : List (String × Part)}
    (held : heap.holds (.object id) = true)
    (fields : (heap.object id).fields.entries =
      Entries.mapValues (fun part => Field.plain part.value) members)
    (inside : ∀ part ∈ members.map Prod.snd, Shows heap part.value part.document part.taken)
    (distinct : (.object id :: (members.map Prod.snd).flatMap Part.taken).Nodup) {name : String}
    {quoted : Bool} {child : Json}
    (found : (Step.member name quoted).find?
      (.object (Entries.mapValues Part.document members)) = some child) :
    ∃ typed used, Hole heap (.member name quoted) (.object id)
      (.object (Entries.mapValues Part.document members))
      (.object id :: (members.map Prod.snd).flatMap Part.taken) typed child used := by
  have ascending : Entries.Ascending members :=
    (Entries.ascending_mapValues (fun part : Part => Field.plain part.value)).mp
      (fields ▸ (heap.object id).fields.ascending)
  simp only [Step.find?, Entries.get?_mapValues] at found
  obtain ⟨old, here, rfl⟩ := Option.map_eq_some_iff.mp found
  have read : (Step.member name quoted).read? heap (.object id) = some (heap.typed old.value) := by
    simp [Step.read?, Heap.field?, Table.get?, fields, Entries.get?_mapValues, here, Heap.typedField, Field.plain]
  obtain ⟨front, olds, back, rfl, only, inserted⟩ := Entries.insert_split name ascending
  rw [here] at only
  obtain rfl : olds = [(name, old)] := only
  have member : old ∈ (front ++ [(name, old)] ++ back).map Prod.snd := by simp
  have outside := (List.nodup_cons.mp distinct).1
  refine ⟨heap.typed old.value, old.taken, read, inside old member,
    (taken_part member).trans (List.sublist_cons_self _ _), fun {later part used'} agrees changed fewer' => ?_⟩
  have apart : Container.object id ∉ old.taken := fun among => outside ((taken_part member).mem among)
  have container := agrees _ apart
  refine ⟨.object (Entries.mapValues Part.document (front ++ (name, ⟨old.value, part, used'⟩) :: back)),
    .object id :: ((front ++ (name, ⟨old.value, part, used'⟩) :: back).map Prod.snd).flatMap Part.taken,
    ?_, ?_, ?_⟩
  · simp only [Step.put?]
    rw [← inserted, ← Entries.insert_mapValues]
  · refine .object (container.holds held) ?_ ?_
    · rw [container.object rfl, fields]
      simp
    · simp only [List.map_append, List.map_cons, List.map_nil] at distinct inside ⊢
      refine parts_replaced distinct inside (fun other _ aside => agrees other ?_) changed
      simpa using aside
  · simp only [List.map_append, List.map_cons, List.map_nil]
    exact (taken_replaced (by simpa using fewer')).cons_cons _

/-- What a step leads to in a shown document can be changed on its own. -/
theorem hole (shown : Shows heap value document taken) (distinct : taken.Nodup) {child : Json}
    (found : step.find? document = some child) :
    ∃ typed used, Hole heap step value document taken typed child used := by
  cases shown with
  | flat flat =>
    rw [find?_flat flat] at found
    cases found
  | array held items inside =>
    cases step with
    | member name quoted => cases found
    | item index => exact hole_item held items inside distinct found
  | object held fields inside =>
    cases step with
    | member name quoted => exact hole_member held fields inside distinct found
    | item index => cases found

/-- Where a step leads nowhere in a shown document, nothing can be stored further down. -/
theorem missed (shown : Shows heap value document taken) (missing : step.find? document = none)
    {typed : TypedValue} (read : step.read? heap value = some typed) : typed.value.IsEnd := by
  cases shown with
  | flat flat => exact read?_flat flat read
  | @array id parts held items inside =>
    cases step with
    | member name quoted =>
      cases quoted with
      | false =>
        obtain ⟨length, _, rfl⟩ := Option.map_eq_some_iff.mp read
        trivial
      | true => cases read
    | item index =>
      simp only [Step.find?, List.length_map, List.getElem?_map] at missing
      simp only [Step.read?, items, List.length_map, List.getElem?_map] at read
      cases there : slot? index parts.length with
      | none => simp [there] at read
      | some position =>
        have none : parts[position]? = none := by simpa [there] using missing
        simp [there, none] at read
  | @object id members held fields inside =>
    cases step with
    | member name quoted =>
      have absent : Entries.get? name members = none := by
        simpa [Step.find?, Entries.get?_mapValues] using missing
      simp [Step.read?, Heap.field?, Table.get?, fields, Entries.get?_mapValues, absent] at read
    | item index => cases read

/-- Nothing can be stored where a step does not fit in a shown document. -/
theorem refused (shown : Shows heap value document taken) (misfit : ¬ step.Fits document) (new : Value) :
    step.store? heap new value = none := by
  cases shown with
  | flat flat => exact store?_flat flat new
  | @array id parts held items inside =>
    cases step with
    | member name quoted => rfl
    | item index =>
      cases there : slot? index parts.length with
      | none => simp [Step.store?, items, there]
      | some position =>
        obtain ⟨same, within⟩ := slot?_eq_some_iff.mp there
        refine absurd ?_ misfit
        simp only [Step.Fits, List.length_map]
        omega
  | object held fields inside =>
    cases step with
    | member name quoted => exact absurd trivial misfit
    | item index => rfl

private theorem store_item {id : ListId} {parts : List Part} (held : heap.holds (.list id) = true)
    (items : heap.items id = parts.map Part.value)
    (inside : ∀ part ∈ parts, Shows heap part.value part.document part.taken)
    (distinct : (.list id :: parts.flatMap Part.taken).Nodup) {index : Int64} {new : Value}
    {part updated : Json} (flat : new.flat? = some part)
    (put : (Step.item index).put? part (.array (parts.map Part.document)) = some updated) :
    ∃ later taken', (Step.item index).store? heap new (.list id) = some later ∧
      Shows later (.list id) updated taken' ∧ taken'.Sublist (.list id :: parts.flatMap Part.taken) ∧
      ∀ container, container ≠ .list id → heap.Agrees later container := by
  simp only [Step.put?, List.length_map] at put
  obtain ⟨position, there, rfl⟩ := Option.map_eq_some_iff.mp put
  have within := (slot?_eq_some_iff.mp there).2
  have given : id.index < heap.lists.size := of_decide_eq_true held
  obtain ⟨front, back, split, replaced⟩ := split_position (List.getElem?_eq_getElem within)
  have agrees (container : Container) (other : container ≠ .list id) :=
    heap.agrees_updateList (·.set position new) other
  refine ⟨heap.updateList id (·.set position new),
    .list id :: (front ++ ⟨new, part, []⟩ :: back).flatMap Part.taken, ?_, ?_, ?_, agrees⟩
  · simp only [Step.store?, items, List.length_map, there, Option.bind_some, Heap.replace?, if_pos within]
  · have changed := replaced Part.document ⟨new, part, []⟩
    dsimp only at changed
    rw [changed]
    refine .array (by rwa [Heap.holds_updateList]) ?_ ?_
    · rw [Heap.items_updateList heap given, if_pos rfl, items]
      exact replaced Part.value ⟨new, part, []⟩
    · rw [split] at inside distinct
      exact parts_replaced distinct inside (fun container other _ => agrees container other) (.flat flat)
  · conv => rhs; rw [split]
    exact (taken_replaced (List.nil_sublist _)).cons_cons _

private theorem store_member {id : ObjectId} {members : List (String × Part)}
    (held : heap.holds (.object id) = true)
    (fields : (heap.object id).fields.entries = Entries.mapValues (fun part => .plain part.value) members)
    (inside : ∀ part ∈ members.map Prod.snd, Shows heap part.value part.document part.taken)
    (distinct : (.object id :: (members.map Prod.snd).flatMap Part.taken).Nodup) {name : String}
    {quoted : Bool} {new : Value} {part updated : Json} (flat : new.flat? = some part)
    (put : (Step.member name quoted).put? part (.object (Entries.mapValues Part.document members)) =
      some updated) :
    ∃ later taken', (Step.member name quoted).store? heap new (.object id) = some later ∧
      Shows later (.object id) updated taken' ∧
      taken'.Sublist (.object id :: (members.map Prod.snd).flatMap Part.taken) ∧
      ∀ container, container ≠ .object id → heap.Agrees later container := by
  have ascending : Entries.Ascending members :=
    (Entries.ascending_mapValues (fun part : Part => Field.plain part.value)).mp
      (fields ▸ (heap.object id).fields.ascending)
  have given : id.index < heap.objects.size := of_decide_eq_true held
  have agrees (container : Container) (other : container ≠ .object id) :=
    heap.agrees_updateFields (·.insert name (.plain new)) other
  obtain ⟨front, olds, back, split, _, inserted⟩ := Entries.insert_split name ascending
  refine ⟨heap.define id name (.plain new),
    .object id :: ((front ++ (name, ⟨new, part, []⟩) :: back).map Prod.snd).flatMap Part.taken,
    ?_, ?_, ?_, agrees⟩
  · -- all fields are plain, so that the new one is
    have found : heap.field? id name = (Entries.get? name members).map fun part => .plain part.value := by
      rw [Heap.field?, Table.get?, fields, Entries.get?_mapValues]
    simp only [Step.store?, Heap.write?, found]
    cases Entries.get? name members <;> rfl
  · simp only [Step.put?, Option.some.injEq] at put
    subst put
    have changed := Entries.insert_mapValues Part.document name ⟨new, part, []⟩ members
    dsimp only at changed
    rw [changed, inserted]
    refine .object (by rwa [Heap.define, Heap.holds_updateFields]) ?_ ?_
    · rw [Heap.define, Heap.object_updateFields heap given, if_pos rfl, ← inserted,
        ← Entries.insert_mapValues]
      exact congrArg (Entries.insert name (.plain new)) fields
    · rw [split] at inside distinct
      simp only [List.map_append, List.map_cons] at distinct inside ⊢
      exact parts_replaced distinct inside (fun container other _ => agrees container other) (.flat flat)
  · rw [split]
    simp only [List.map_append, List.map_cons]
    exact (taken_replaced (List.nil_sublist _)).cons_cons _

/-- What can be put in a shown document can be stored in the heap, which then shows the changed
document. -/
theorem store (shown : Shows heap value document taken) (distinct : taken.Nodup) {new : Value}
    {part updated : Json} (flat : new.flat? = some part) (put : step.put? part document = some updated) :
    ∃ later taken', step.store? heap new value = some later ∧ Shows later value updated taken' ∧
      taken'.Sublist taken ∧ ∀ container, container ∉ taken → heap.Agrees later container := by
  have fits : step.Fits document := (Step.put?_iff_fits part step document).mp (by simp [put])
  cases shown with
  | flat none => exact absurd fits (not_fits_flat none)
  | array held items inside =>
    cases step with
    | member name quoted => cases put
    | item index =>
      obtain ⟨later, taken', stored, shown, fewer, agrees⟩ :=
        store_item held items inside distinct flat put
      exact ⟨later, taken', stored, shown, fewer,
        fun container outside => agrees container fun same => outside (same ▸ List.mem_cons_self)⟩
  | object held fields inside =>
    cases step with
    | member name quoted =>
      obtain ⟨later, taken', stored, shown, fewer, agrees⟩ :=
        store_member held fields inside distinct flat put
      exact ⟨later, taken', stored, shown, fewer,
        fun container outside => agrees container fun same => outside (same ▸ List.mem_cons_self)⟩
    | item index => cases put

/-! ## Several steps -/

/-- A part that can be put below a shown document can be stored where the steps lead in the heap, which
then shows the changed document. -/
theorem walk {lead : List Step} {last : Step} {typed : TypedValue}
    (shown : Shows heap typed.value document taken) (distinct : taken.Nodup) {new : Value}
    {part updated : Json} (flat : new.flat? = some part)
    (put : putBelow? part last lead document = some updated) :
    ∃ parent later taken', walk? heap lead typed = some parent ∧
      last.store? heap new parent.value = some later ∧ Shows later typed.value updated taken' ∧
      taken'.Sublist taken ∧ ∀ container, container ∉ taken → heap.Agrees later container := by
  induction lead generalizing typed document taken updated with
  | nil =>
    obtain ⟨later, taken', stored, changed⟩ := shown.store distinct flat put
    exact ⟨typed, later, taken', rfl, stored, changed⟩
  | cons step rest ih =>
    obtain ⟨child, below, found, putBelow, put⟩ := of_putBelow? put
    obtain ⟨inner, used, hole⟩ := shown.hole distinct found
    obtain ⟨parent, later, used', walked, stored, changed, fewer, agrees⟩ :=
      ih hole.shown (distinct.sublist hole.fewer) putBelow
    obtain ⟨updated', taken', put', shown', fewer'⟩ := hole.fill agrees changed fewer
    obtain rfl := Option.some.inj (put.symm.trans put')
    refine ⟨parent, later, taken', ?_, stored, shown', fewer', fun container outside => ?_⟩
    · rw [walk?, hole.read]
      exact walked
    · exact agrees container fun inside => outside (hole.fewer.mem inside)

/-- Nothing can be stored where the steps lead in the heap, if no part can be put there below the shown
document. -/
theorem walk_refused {lead : List Step} {last : Step} {typed : TypedValue}
    (shown : Shows heap typed.value document taken) (distinct : taken.Nodup) {part : Json}
    (refused : putBelow? part last lead document = none) (new : Value) {parent : TypedValue}
    (walked : walk? heap lead typed = some parent) : last.store? heap new parent.value = none := by
  induction lead generalizing typed document taken with
  | nil =>
    obtain rfl := Option.some.inj walked
    have misfit : ¬ last.Fits document := by
      rw [← Step.put?_iff_fits part]
      simpa [putBelow?] using refused
    exact shown.refused misfit new
  | cons step rest ih =>
    obtain ⟨inner, read, walked⟩ := Option.bind_eq_some_iff.mp walked
    cases found : step.find? document with
    | none => exact ((shown.missed found read).walk walked).store new
    | some child =>
      obtain ⟨typed', used, hole⟩ := shown.hole distinct found
      obtain rfl := Option.some.inj (hole.read.symm.trans read)
      refine ih hole.shown (distinct.sublist hole.fewer) ?_ walked
      cases below : putBelow? part last rest child with
      | none => rfl
      | some changed =>
        have fits := (Step.put?_iff_fits changed step document).mpr (Step.fits_of_find? found)
        simp only [putBelow?, found, Option.bind_eq_bind, Option.bind_some, below] at refused
        rw [refused] at fits
        cases fits

/-- To store a value at the end of a path is to put its document there. -/
theorem store_path {root : TypedValue} (shown : Shows heap root.value document taken)
    (distinct : taken.Nodup) {new : Value} {part : Json} (flat : new.flat? = some part) (path : Path) :
    (path.store? heap new root).map (Heap.document · root.value) = path.put? part document := by
  cases put : path.put? part document with
  | some updated =>
    obtain ⟨parent, later, taken', walked, stored, changed, fewer, _⟩ := shown.walk distinct flat put
    rw [Path.store?, walked, Option.bind_some, stored, Option.map_some,
      changed.document (distinct.sublist fewer)]
  | none =>
    rw [Path.store?]
    cases walked : walk? heap path.lead root with
    | none => rfl
    | some parent => rw [Option.bind_some, shown.walk_refused distinct put new walked, Option.map_none]

end Shows

end

end DotChain
