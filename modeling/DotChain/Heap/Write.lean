import DotChain.Heap.Basic

/-!
# Single writes

What is different in a heap after an item of a list was replaced, and after a value was stored in a field of
an object: one place, and nothing else.
-/

namespace DotChain.Heap

/-- One item of a list is replaced by a value, and all else is the same. -/
structure PutsItem (before after : Heap) (id : ListId) (position : Nat) (value : Value) : Prop where
  inside : position < (before.items id).length
  here : after.items id = (before.items id).set position value
  lists {other : ListId} : other ≠ id → after.items other = before.items other
  objects (other : ObjectId) : after.object other = before.object other
  holds (container : Container) : after.holds container = before.holds container
  hosts : after.hosts = before.hosts

/-- One field of an object gets a value, and all else is the same. The field may be written; it keeps its
marks, and has those of a plain field if it was not there. An object that was not given out gets nothing. -/
structure PutsField (before after : Heap) (id : ObjectId) (name : String) (value : Value) : Prop where
  allowed {field : Field} : before.field? id name = some field → field.writable = true
  here : before.holds (.object id) = true → after.field? id name =
    some (match before.field? id name with
      | some field => { field with value := value }
      | none => .plain value)
  fields {other : String} : other ≠ name → after.field? id other = before.field? id other
  typeName : (after.object id).typeName = (before.object id).typeName
  objects {other : ObjectId} : other ≠ id → after.object other = before.object other
  lists (other : ListId) : after.items other = before.items other
  holds (container : Container) : after.holds container = before.holds container
  hosts : after.hosts = before.hosts

/-! ## What the changes do -/

theorem putsItem_of_replace? {heap changed : Heap} {id : ListId} {position : Nat} {value : Value}
    (done : heap.replace? id position value = some changed) :
    heap.PutsItem changed id position value := by
  unfold replace? at done
  split at done
  · next inside =>
    obtain rfl := Option.some.inj done
    have given : id.index < heap.lists.size := by
      refine Nat.lt_of_not_le fun outside => ?_
      have empty : heap.items id = [] := by simp [items, outside]
      simp [empty] at inside
    refine ⟨inside, ?_, ?_, fun _ => rfl, fun _ => holds_updateList .., rfl⟩
    · rw [items_updateList heap given, if_pos rfl]
    · intro other apart
      exact items_updateList_other heap (Ne.symm apart) _
  · cases done

/-- Putting a field under a name is seen there, if the object exists, and nowhere else. -/
private theorem field?_define (heap : Heap) (id : ObjectId) (name other : String) (field : Field) :
    (heap.define id name field).field? id other =
      if name = other ∧ heap.holds (.object id) = true then some field else heap.field? id other := by
  by_cases held : heap.holds (.object id) = true
  · have given : id.index < heap.objects.size := by simpa [Heap.holds] using held
    rw [define, field?_updateFields heap given, if_pos rfl, Table.get?_insert]
    simp [held, field?]
  · have outside : heap.objects.size ≤ id.index := by simpa [Heap.holds] using held
    simp [held, define, updateFields, field?, object, outside]

private theorem putsField_define {heap : Heap} {id : ObjectId} {name : String} {value : Value}
    {field : Field} (allowed : ∀ old, heap.field? id name = some old → old.writable = true)
    (marks : field = match heap.field? id name with
      | some old => { old with value := value }
      | none => .plain value) :
    heap.PutsField (heap.define id name field) id name value where
  allowed found := allowed _ found
  here held := by rw [field?_define, if_pos ⟨rfl, held⟩, marks]
  fields apart := by rw [field?_define, if_neg fun both => apart both.1.symm]
  typeName := typeName_updateFields ..
  objects apart := object_updateFields_other heap (Ne.symm apart) _
  lists _ := rfl
  holds _ := holds_updateFields ..
  hosts := rfl

theorem putsField_of_write? {heap changed : Heap} {id : ObjectId} {name : String} {value : Value}
    (done : heap.write? id name value = some changed) : heap.PutsField changed id name value := by
  unfold write? at done
  cases found : heap.field? id name with
  | none =>
    rw [found] at done
    obtain rfl := Option.some.inj done
    exact putsField_define (by simp [found]) (by simp [found])
  | some field =>
    by_cases writable : field.writable = true
    · simp only [found, writable, if_true] at done
      obtain rfl := Option.some.inj done
      refine putsField_define (fun old same => ?_) (by simp [found, writable])
      rw [found] at same
      obtain rfl := Option.some.inj same
      exact writable
    · simp [found, writable] at done

/-! ## Types after a write -/

/-- The types that are inferred depend on the names that objects have for their types. -/
theorem staticType_congr {before after : Heap} (hosts : after.hosts = before.hosts)
    (typeName : ∀ id, (after.object id).typeName = (before.object id).typeName) (value : Value) :
    after.staticType value = before.staticType value := by
  cases value with
  | object id => simp only [staticType, typeName]
  | host id => simp only [staticType, card, hosts]
  | _ => rfl

theorem PutsItem.staticType {before after : Heap} {id : ListId} {position : Nat} {value : Value}
    (puts : before.PutsItem after id position value) (other : Value) :
    after.staticType other = before.staticType other :=
  staticType_congr puts.hosts (fun id => by rw [puts.objects]) other

theorem PutsField.staticType {before after : Heap} {id : ObjectId} {name : String} {value : Value}
    (puts : before.PutsField after id name value) (other : Value) :
    after.staticType other = before.staticType other := by
  refine staticType_congr puts.hosts (fun written => ?_) other
  by_cases same : written = id
  · subst same
    exact puts.typeName
  · rw [puts.objects same]

/-! ## Fields after a write -/

namespace PutsField

variable {before after : Heap} {id other : ObjectId} {name key : String} {value : Value}

/-- What a field is after a write: itself, or the one that was written. -/
theorem field?_eq (puts : before.PutsField after id name value) (apart : ¬(other = id ∧ key = name)) :
    after.field? other key = before.field? other key := by
  by_cases same : other = id
  · subst same
    exact puts.fields fun here => apart ⟨rfl, here⟩
  · rw [field?, puts.objects same, field?]

/-- A field that is there after a write declares no type, or the one that the field before declared. -/
theorem declared (puts : before.PutsField after id name value) {field : Field}
    (found : after.field? other key = some field) :
    field.declared = none ∨ ∃ old, before.field? other key = some old ∧ old.declared = field.declared := by
  by_cases here : other = id ∧ key = name
  · obtain ⟨rfl, rfl⟩ := here
    cases held : before.holds (.object other) with
    | false =>
      rw [field?_of_not_holds ((puts.holds _).trans held)] at found
      cases found
    | true =>
      rw [puts.here held] at found
      obtain rfl := Option.some.inj found
      cases there : before.field? other key with
      | none => exact .inl rfl
      | some old => exact .inr ⟨old, rfl, rfl⟩
  · rw [puts.field?_eq here] at found
    exact .inr ⟨field, found, rfl⟩

end PutsField

end DotChain.Heap
