import DotChain.Heap.Write
import DotChain.State
import Mathlib.Logic.Relation

/-!
# What can be reached

A list contains its items and an object the values of its fields. What a value reaches is the value itself,
what that contains, and so on. A state is entered by its root, its variables and its active contexts.
-/

namespace DotChain

/-- Whether a value is no handle. -/
def Value.IsScalar : Value → Prop
  | .list _ | .object _ | .host _ => False
  | _ => True

theorem Value.isScalar_text (text : String) : (Value.text text).IsScalar := trivial

theorem Value.isScalar_ofLength (length : Nat) : (Value.ofLength length).IsScalar := trivial

theorem Literal.isScalar_typed (value : Literal) : value.typed.value.IsScalar := by
  cases value <;> trivial

/-- A literal has the type that is inferred from its value, in whatever heap. -/
theorem Literal.typed_eq (value : Literal) (heap : Heap) : heap.typed value.typed.value = value.typed := by
  cases value <;> rfl

theorem Container.not_scalar (container : Container) : ¬container.value.IsScalar := by
  cases container <;> exact id

theorem Container.eq_of_value_eq {a b : Container} (same : a.value = b.value) : a = b := by
  cases a <;> cases b <;> cases same <;> rfl

namespace Heap

/-- A value is an item of a list, or it stands in a field of an object. -/
inductive Contains (heap : Heap) : Value → Value → Prop where
  | item {id : ListId} {value : Value} (member : value ∈ heap.items id) : Contains heap (.list id) value
  | field {id : ObjectId} {name : String} {field : Field} (found : heap.field? id name = some field) :
    Contains heap (.object id) field.value

/-- A value is another one or is found below it. -/
def Reaches (heap : Heap) : Value → Value → Prop := Relation.ReflTransGen heap.Contains

variable {heap before after : Heap} {source target value : Value}

theorem not_contains_scalar (scalar : source.IsScalar) : ¬heap.Contains source target := by
  intro contains
  cases contains <;> exact scalar

/-- A scalar reaches itself alone. -/
theorem eq_of_reaches_scalar (scalar : source.IsScalar) (reaches : heap.Reaches source target) :
    target = source := by
  obtain same | ⟨next, contains, _⟩ := Relation.ReflTransGen.cases_head reaches
  · exact same.symm
  · exact absurd contains (not_contains_scalar scalar)

/-- A set of values that has with each value what that contains has what its values reach. -/
theorem Reaches.within {inside : Value → Prop}
    (closed : ∀ source target, inside source → heap.Contains source target → inside target)
    (reaches : heap.Reaches source target) (start : inside source) : inside target := by
  induction reaches with
  | refl => exact start
  | tail _ contains ih => exact closed _ _ ih contains

/-! ## After a write -/

/-- After an item was replaced, its list contains the new value, and nothing else is new. -/
theorem PutsItem.contains {id : ListId} {position : Nat} (puts : before.PutsItem after id position value)
    (contains : after.Contains source target) :
    before.Contains source target ∨ source = .list id ∧ target = value := by
  cases contains with
  | @item other _ member =>
    by_cases here : other = id
    · subst here
      rw [puts.here] at member
      rcases List.mem_or_eq_of_mem_set member with old | new
      · exact .inl (.item old)
      · exact .inr ⟨rfl, new⟩
    · rw [puts.lists here] at member
      exact .inl (.item member)
  | @field other name _ found =>
    rw [field?, puts.objects] at found
    exact .inl (.field found)

/-- After a field was written, its object contains the new value, and nothing else is new. -/
theorem PutsField.contains {id : ObjectId} {name : String} (puts : before.PutsField after id name value)
    (contains : after.Contains source target) :
    before.Contains source target ∨ source = .object id ∧ target = value := by
  cases contains with
  | item member =>
    rw [puts.lists] at member
    exact .inl (.item member)
  | @field other key field found =>
    by_cases here : other = id ∧ key = name
    · obtain ⟨rfl, rfl⟩ := here
      refine .inr ⟨rfl, ?_⟩
      cases held : before.holds (.object other) with
      | false =>
        rw [field?_of_not_holds ((puts.holds _).trans held)] at found
        cases found
      | true =>
        rw [puts.here held] at found
        obtain rfl := Option.some.inj found
        cases before.field? other key <;> rfl
    · rw [puts.field?_eq here] at found
      exact .inl (.field found)

end Heap

namespace State

variable {W : Type}

/-- A value with which something in a state begins. -/
inductive Entry (state : State W) : TypedValue → Prop where
  | root : Entry state state.root
  | binding {name : String} {value : TypedValue} (bound : state.bindings.get? name = some value) :
    Entry state value
  | context {value : TypedValue} (active : value ∈ state.contexts) : Entry state value

/-- A value is found in a state. -/
def Reaches (state : State W) (value : Value) : Prop :=
  ∃ entry, state.Entry entry ∧ state.heap.Reaches entry.value value

theorem entry_current (state : State W) : state.Entry state.current := by
  rw [current]
  cases active : state.contexts.head? with
  | none => exact .root
  | some value => exact .context (List.mem_of_mem_head? active)

end State

end DotChain
