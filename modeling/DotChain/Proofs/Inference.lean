import DotChain.Proofs.Acts
import Mathlib.Data.List.Induction

/-!
# Inferred types

A value is typed by inference, but for the fields of objects that declare a type and for what an application
hands out. Main statement: `types_stay_inferred`, where neither is found, in a state or in the values that are
given to store there, every value that operations return, make active or bind carries the type that is inferred
from it.
-/

namespace DotChain

variable {W : Type}

/-! ## Values without declared types -/

/-- Neither an object of an application nor a field with a declared type is found below a value. -/
structure Heap.Undeclared (heap : Heap) (value : Value) : Prop where
  hostless (id : HostId) : ¬heap.Reaches value (.host id)
  field {id : ObjectId} {name : String} {field : Field} : heap.Reaches value (.object id) →
    heap.field? id name = some field → field.declared = none

/-- A value carries the type that is inferred from it, and nothing below it has another one. -/
structure Heap.Inferred (heap : Heap) (typed : TypedValue) : Prop where
  type : typed.type = heap.staticType typed.value
  undeclared : heap.Undeclared typed.value

/-- The root, the variables and the active contexts carry the types that are inferred from them. -/
def State.Inferred (state : State W) : Prop := ∀ value, state.Entry value → state.heap.Inferred value

namespace Heap

variable {heap start : Heap} {source target value : Value}

theorem Undeclared.next (undeclared : heap.Undeclared source) (contains : heap.Contains source target) :
    heap.Undeclared target :=
  ⟨fun id reaches => undeclared.hostless id (reaches.head contains),
    fun reaches => undeclared.field (reaches.head contains)⟩

/-- What is below a value is of a kind that goes down from value to value, if the value is. -/
theorem undeclared_of_closed (inside : Value → Prop)
    (closed : ∀ source target, inside source → heap.Contains source target → inside target)
    (hostless : ∀ id, ¬inside (.host id))
    (field : ∀ id name field, inside (.object id) → heap.field? id name = some field → field.declared = none)
    (here : inside value) : heap.Undeclared value where
  hostless id reaches := hostless id (reaches.within closed here)
  field reaches := field _ _ _ (reaches.within closed here)

theorem undeclared_scalar (scalar : value.IsScalar) : heap.Undeclared value :=
  undeclared_of_closed Value.IsScalar
    (fun _ _ scalar contains => absurd contains (not_contains_scalar scalar)) (fun _ => id)
    (fun _ _ _ scalar => scalar.elim) scalar

theorem inferred_scalar (scalar : value.IsScalar) : heap.Inferred (heap.typed value) :=
  ⟨rfl, undeclared_scalar scalar⟩

/-! ## Heaps to which operations lead -/

/-- A heap infers the types that another one does, and what is below the values that have no declared types in
that one has none in this one. -/
structure Follows (heap start : Heap) : Prop where
  closed {source target : Value} : start.Undeclared source → heap.Contains source target →
    start.Undeclared target
  field {id : ObjectId} {name : String} {field : Field} : start.Undeclared (.object id) →
    heap.field? id name = some field → field.declared = none
  type (value : Value) : heap.staticType value = start.staticType value

theorem follows_refl (heap : Heap) : heap.Follows heap :=
  ⟨Undeclared.next, fun undeclared => undeclared.field .refl, fun _ => rfl⟩

theorem Follows.undeclared (follows : heap.Follows start) (undeclared : start.Undeclared value) :
    heap.Undeclared value :=
  undeclared_of_closed start.Undeclared (fun _ _ => follows.closed)
    (fun _ undeclared => undeclared.hostless _ .refl) (fun _ _ _ => follows.field) undeclared

theorem Follows.inferred (follows : heap.Follows start) {typed : TypedValue}
    (inferred : start.Inferred typed) : heap.Inferred typed :=
  ⟨inferred.type.trans (follows.type _).symm, follows.undeclared inferred.undeclared⟩

theorem Follows.replace {changed : Heap} {id : ListId} {position : Nat} (follows : heap.Follows start)
    (stored : start.Undeclared value) (puts : heap.PutsItem changed id position value) :
    changed.Follows start where
  closed undeclared contains := by
    obtain old | ⟨_, rfl⟩ := puts.contains contains
    · exact follows.closed undeclared old
    · exact stored
  field undeclared found := by
    rw [field?, puts.objects] at found
    exact follows.field undeclared found
  type value := (puts.staticType value).trans (follows.type value)

theorem Follows.write {changed : Heap} {id : ObjectId} {name : String} (follows : heap.Follows start)
    (stored : start.Undeclared value) (puts : heap.PutsField changed id name value) :
    changed.Follows start where
  closed undeclared contains := by
    obtain old | ⟨_, rfl⟩ := puts.contains contains
    · exact follows.closed undeclared old
    · exact stored
  field undeclared found := by
    obtain none | ⟨old, there, same⟩ := puts.declared found
    · exact none
    · exact same ▸ follows.field undeclared there
  type value := (puts.staticType value).trans (follows.type value)

end Heap

/-! ## The realm of inferred types -/

/-- The values that carry their inferred types in a heap, and the heaps to which operations on them lead. -/
def Realm.inferred (start : Heap) : Realm where
  heaps heap := heap.Follows start
  values := start.Inferred

theorem Realm.inferred_writing (start : Heap) : (Realm.inferred start).Writing where
  scalar {value} scalar heap := by
    refine ⟨?_, Heap.undeclared_scalar scalar⟩
    cases value <;> first | rfl | exact scalar.elim
  hostless inside id same := inside.undeclared.hostless id (same ▸ .refl)
  item follows inside same member :=
    ⟨follows.type _, follows.closed inside.undeclared (same ▸ .item member)⟩
  field {heap target id name field} follows inside same found := by
    have undeclared : start.Undeclared (.object id) := same ▸ inside.undeclared
    rw [Heap.typedField, follows.field undeclared found]
    exact ⟨follows.type _, follows.closed undeclared (.field found)⟩
  replace follows _ _ stored puts := follows.replace stored.undeclared puts
  write follows _ _ stored puts := follows.write stored.undeclared puts

section
variable {state reached : State W}

theorem State.Inferred.holds (inferred : state.Inferred) : (Realm.inferred state.heap).Holds state where
  heap := Heap.follows_refl state.heap
  root := inferred _ .root
  binding bound := inferred _ (.binding bound)
  context active := inferred _ (.context active)

theorem Realm.Holds.inferred {start : Heap} (holds : (Realm.inferred start).Holds reached) :
    reached.Inferred :=
  fun _ entry => holds.heap.inferred (holds.entry entry)

end

/-! ## Acts -/

section
variable [Host W] {act : Act W}

/-- Whatever an act finds, stores, leaves and returns carries the type that is inferred from it. -/
structure Act.Inferred (act : Act W) : Prop where
  before : act.state.Inferred
  stored {value : TypedValue} : act.operation = .assign value → act.state.heap.Inferred value
  after : act.final.Inferred
  returned {value : TypedValue} : act.outcome.1 = .ok (.value value) → act.final.heap.Inferred value

theorem Realm.Admits.inferred {start : Heap} (admits : (Realm.inferred start).Admits act) : act.Inferred := by
  obtain ⟨final, result⟩ := admits.ends (Realm.inferred_writing start)
  exact {
    before := admits.holds.inferred
    stored := fun same => admits.holds.heap.inferred (admits.stored same)
    after := final.inferred
    returned := fun same => final.heap.inferred (result same _ rfl) }

end

/-! ## Sessions -/

section
variable [Host W] {state : State W} {request : Request}

/-- The act that runs an operation on a state. -/
def Request.act (state : State W) : Request → Act W
  | evaluate e => ⟨e, .evaluate, state⟩
  | store e value => ⟨e, .assign value, state⟩
  | ask e => ⟨e, .isAssignable, state⟩

theorem Request.final_act (state : State W) (request : Request) :
    (request.act state).final = request.run state := by
  cases request <;> exact congrArg Prod.snd (Eval.outcome_map _ _ state)

/-- All acts in the course of an operation keep to inferred types. -/
theorem act_inferred (inferred : state.Inferred)
    (given : ∀ value, request.given? = some value → state.heap.Inferred value) {act : Act W}
    (within : act.InCourseOf (request.act state)) : act.Inferred := by
  have admits : (Realm.inferred state.heap).Admits (request.act state) := by
    cases request with
    | evaluate e => exact ⟨inferred.holds, nofun⟩
    | store e value =>
      refine ⟨inferred.holds, ?_⟩
      rintro _ ⟨⟩
      exact given value rfl
    | ask e => exact ⟨inferred.holds, nofun⟩
  exact (admits.inCourse (Realm.inferred_writing state.heap) within).inferred

end

/-- Types stay inferred. In a state whose root, variables and active contexts carry the types that are inferred
from them, and where neither an object of an application nor a field with a declared type can be found, any
operations are run one after the other. What they are given to store is of that kind as well: it carries its
inferred type, and neither an object of an application nor such a field is found below it. Then the state
is of that kind again, and so is the state in which any act in their course begins and the one that it leaves,
with all that is active or bound there, and every value that such an act stores or returns. The operations
themselves are among these acts. -/
theorem types_stay_inferred [Host W] (state : State W) (session : List Request) (inferred : state.Inferred)
    (given : ∀ earlier request later value, session = earlier ++ request :: later →
      request.given? = some value → (state.afterSession earlier).heap.Inferred value) :
    (state.afterSession session).Inferred ∧
      ∀ earlier request later, session = earlier ++ request :: later →
        ∀ act : Act W, act.InCourseOf (request.act (state.afterSession earlier)) → act.Inferred := by
  -- Along the session: each operation starts from where those before it have led.
  have all (earlier later : List Request) (split : session = earlier ++ later) :
      (state.afterSession earlier).Inferred := by
    induction earlier using List.reverseRecOn generalizing later with
    | nil => exact inferred
    | append_singleton earlier request ih =>
      have split : session = earlier ++ request :: later := split.trans (List.append_assoc ..)
      rw [State.afterSession, List.foldl_concat, ← Request.final_act]
      exact (act_inferred (ih _ split) (given earlier request later · split) .refl).after
  refine ⟨all session [] (List.append_nil session).symm, fun earlier request later split act within => ?_⟩
  exact act_inferred (all earlier _ split) (given earlier request later · split) within

/-- A named object with a number, which also contains itself. -/
private def selfContained : State Unit :=
  .initial ⟨.object ⟨0⟩, .named "Ring"⟩ .standard
    ⟨⟨#[], #[⟨some "Ring", .ofList [("n", .plain (.int 1)), ("self", .plain (.object ⟨0⟩))]⟩], #[]⟩, ()⟩

/-- A field of the object declares no type, and nothing is in it but a scalar or the object. -/
private theorem selfContained_field {id : ObjectId} {name : String} {field : Field}
    (found : selfContained.heap.field? id name = some field) :
    field.declared = none ∧ (field.value.IsScalar ∨ field.value = .object ⟨0⟩) := by
  obtain ⟨_ | index⟩ := id
  · have fields : selfContained.heap.field? ⟨0⟩ name =
        if "self" = name then some (.plain (.object ⟨0⟩))
        else if "n" = name then some (.plain (.int 1)) else none := by
      simp [selfContained, State.initial, State.heap, Heap.field?, Heap.object, Table.ofList, Table.get?_insert]
    rw [fields] at found
    split at found
    · obtain rfl := Option.some.inj found
      exact ⟨rfl, .inr rfl⟩
    · split at found
      · obtain rfl := Option.some.inj found
        exact ⟨rfl, .inl trivial⟩
      · cases found
  · cases found

private theorem selfContained_inferred : selfContained.Inferred := by
  intro value entry
  have undeclared : selfContained.heap.Undeclared (.object ⟨0⟩) := by
    refine Heap.undeclared_of_closed (fun value => value.IsScalar ∨ value = .object ⟨0⟩)
      (fun source target _ contains => ?_) (fun id here => ?_)
      (fun _ _ _ _ found => (selfContained_field found).1) (.inr rfl)
    · cases contains with
      | item member => cases member
      | field found => exact (selfContained_field found).2
    · obtain scalar | same := here
      · exact scalar
      · cases same
  cases entry with
  | root => exact ⟨rfl, undeclared⟩
  | binding bound => cases bound
  | context active => cases active

/-- `#x = self`. -/
private def naming : Expr :=
  .assign (.reference "x" ⟨0, 2⟩) (.property "self" false ⟨5, 9⟩) ⟨0, 9⟩

/-- A variable gets the object, with the type that is inferred from it, and a number is stored in it. -/
theorem types_stay_inferred_self :
    let session : List Request := [.evaluate naming, .store (.property "n" false ⟨0, 1⟩) ⟨.int 2, .int⟩]
    let final := selfContained.afterSession session
    selfContained.Inferred ∧ final.Inferred ∧
      final.bindings.get? "x" = some ⟨.object ⟨0⟩, .named "Ring"⟩ := by
  intro session final
  obtain ⟨inferred, -⟩ := types_stay_inferred selfContained session selfContained_inferred
    fun earlier request later value split given => by
      have member : request ∈ session := by simp [split]
      simp only [session, List.mem_cons, List.not_mem_nil, or_false] at member
      obtain rfl | rfl := member
      · cases given
      · obtain rfl := Option.some.inj given
        exact Heap.inferred_scalar trivial
  exact ⟨selfContained_inferred, inferred, rfl⟩

end DotChain
