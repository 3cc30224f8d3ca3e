import DotChain.Proofs.Balance
import DotChain.Proofs.Realms
import DotChain.Proofs.Confinement
import DotChain.Proofs.Steps

/-!
# Locations

An expression to which a value can be stored leads to a location: a variable, or where a step leads from a
value. Main statements: `Expr.locates_of_store`, storing succeeds by putting the value at the location that
the expression leads to, `Expr.evaluate_of_locates`, evaluating reads what stands there, and
`Location.read?_put?`, what was put at a location stands there.

Objects of an application have no locations. A store to one is told to the application.
-/

namespace DotChain

open DotChain.Path (Step)

variable {W α : Type}

/-! ## Single steps -/

/-- The step that an index with a given key takes. -/
def Path.Step.ofKey? : Value → Option Step
  | .int index => some (.item index)
  | .text name => some (.member name true)
  | _ => none

/-- No step leads into an object of the application. -/
theorem Path.Step.not_read?_host {step : Step} {heap : Heap} {context : Value} {result : TypedValue}
    (read : step.read? heap context = some result) (id : HostId) : context ≠ .host id := by
  rintro rfl
  cases step with
  | member name quoted => cases quoted <;> cases read
  | item index => cases read

section
variable [Host W] {state final : State W} {result value : TypedValue}

/-- A property reads what its step reads. -/
theorem Property.evaluate_ok_iff {name : String} {span : Span}
    (hostless : ∀ id, state.current.value ≠ .host id) :
    (Property.evaluate name span).outcome state = (.ok result, final) ↔
      (Step.member name false).read? state.heap state.current.value = some result ∧ state = final := by
  rw [Property.evaluate, Eval.outcome_get_bind]
  cases context : state.current.value with
  | null => simp [Step.read?, Property.length?]
  | object id => exact Eval.orFault_ok_iff
  | host id => exact absurd context (hostless id)
  | _ =>
    simp only [Eval.bind_ok_iff, Eval.orFault_ok_iff, Eval.pure_ok_iff, Step.read?, Option.map_eq_some_iff]
    constructor
    · rintro ⟨length, _, ⟨found, rfl⟩, rfl, rfl⟩
      exact ⟨⟨length, found, rfl⟩, rfl⟩
    · rintro ⟨⟨length, found, rfl⟩, rfl⟩
      exact ⟨length, _, ⟨found, rfl⟩, rfl, rfl⟩

omit [Host W] in
/-- Going on with the heap that a change makes succeeds if the change is allowed. -/
private theorem change_ok_iff {changed : Option Heap} {fault : Fault} {span : Span} :
    (do set (state.withHeap (← Eval.orFault changed fault span)) : Eval W Unit).outcome state =
        (.ok (), final) ↔ ∃ heap, changed = some heap ∧ state.withHeap heap = final := by
  cases changed <;> simp [Eval.bind_ok_iff, Eval.orFault_ok_iff]

/-- A property stores where its step leads. -/
theorem Property.assign_ok_iff {name : String} {span : Span}
    (hostless : ∀ id, state.current.value ≠ .host id) :
    (Property.assign name span value).outcome state = (.ok (), final) ↔
      ∃ heap, (Step.member name false).store? state.heap value.value state.current.value = some heap ∧
        state.withHeap heap = final := by
  rw [Property.assign, Eval.outcome_get_bind]
  cases context : state.current.value with
  | null => simp [Step.store?]
  | object id => exact change_ok_iff
  | host id => exact absurd context (hostless id)
  | _ =>
    dsimp only
    split <;> simp [Step.store?]

/-- An index evaluates its key and reads what the key's step reads. -/
theorem Indexer.evaluate_ok_iff {index : Eval W TypedValue} {span : Span}
    (hostless : ∀ id, state.current.value ≠ .host id) :
    (Indexer.evaluate index span).outcome state = (.ok result, final) ↔
      ∃ key step, (Indexer.key index).outcome state = (.ok key, final) ∧ Step.ofKey? key = some step ∧
        step.read? final.heap state.current.value = some result := by
  rw [Indexer.evaluate, Eval.outcome_get_bind]
  simp only [Eval.bind_ok_iff, Eval.outcome_get_bind]
  constructor
  · rintro ⟨key, reached, run, selected⟩
    split at selected
    case h_2 id i context | h_3 text i context =>
      obtain ⟨found, rfl⟩ := Eval.orFault_ok_iff.mp selected
      exact ⟨.int i, .item i, run, rfl, by rwa [context]⟩
    case h_6 id name context =>
      obtain ⟨found, rfl⟩ := Eval.orFault_ok_iff.mp selected
      exact ⟨.text name, .member name true, run, rfl, by rwa [context]⟩
    case h_7 id name context => exact absurd context (hostless id)
    all_goals simp at selected
  · rintro ⟨key, step, run, keyed, read⟩
    refine ⟨key, final, run, ?_⟩
    cases key with
    | int i =>
      obtain rfl := Option.some.inj keyed
      cases context : state.current.value with
      | list id | text text =>
        rw [context] at read
        exact Eval.orFault_ok_iff.mpr ⟨read, rfl⟩
      | _ =>
        rw [context] at read
        cases read
    | text name =>
      obtain rfl := Option.some.inj keyed
      cases context : state.current.value with
      | object id =>
        rw [context] at read
        exact Eval.orFault_ok_iff.mpr ⟨read, rfl⟩
      | _ =>
        rw [context] at read
        cases read
    | _ => cases keyed

/-- An index evaluates its key and stores where the key's step leads. -/
theorem Indexer.assign_ok_iff {index : Eval W TypedValue} {span : Span}
    (hostless : ∀ id, state.current.value ≠ .host id) :
    (Indexer.assign index span value).outcome state = (.ok (), final) ↔
      ∃ key reached step heap, (Indexer.key index).outcome state = (.ok key, reached) ∧
        Step.ofKey? key = some step ∧
        step.store? reached.heap value.value state.current.value = some heap ∧
        reached.withHeap heap = final := by
  rw [Indexer.assign, Eval.outcome_get_bind]
  simp only [Eval.bind_ok_iff, Eval.outcome_get_bind]
  refine exists_congr fun key => exists_congr fun reached => ?_
  constructor
  · rintro ⟨run, stored⟩
    split at stored
    case h_2 id i context =>
      obtain ⟨heap, changed, rfl⟩ := change_ok_iff.mp stored
      exact ⟨.item i, heap, run, rfl, by rwa [context], rfl⟩
    case h_4 id name context =>
      obtain ⟨heap, changed, rfl⟩ := change_ok_iff.mp stored
      exact ⟨.member name true, heap, run, rfl, by rwa [context], rfl⟩
    case h_5 id name context => exact absurd context (hostless id)
    all_goals simp at stored
  · rintro ⟨step, heap, run, keyed, stored, rfl⟩
    refine ⟨run, ?_⟩
    cases key with
    | int i =>
      obtain rfl := Option.some.inj keyed
      cases context : state.current.value with
      | list id =>
        rw [context] at stored
        exact change_ok_iff.mpr ⟨heap, stored, rfl⟩
      | _ =>
        rw [context] at stored
        cases stored
    | text name =>
      obtain rfl := Option.some.inj keyed
      cases context : state.current.value with
      | object id =>
        rw [context] at stored
        exact change_ok_iff.mpr ⟨heap, stored, rfl⟩
      | _ =>
        rw [context] at stored
        cases stored
    | _ => cases keyed

end

/-! ## What steps store -/

namespace Path.Step

/-- The type with which a step reads a value where it was stored: the declared type of a field that has one,
else the type that is inferred from the value. -/
def keptType (heap : Heap) (new : Value) : Step → Value → StaticType
  | member name _, .object id => ((heap.field? id name).bind (·.declared)).getD (heap.staticType new)
  | _, _ => heap.staticType new

variable {heap later : Heap} {new context other : Value} {step : Step}

/-- A step stores in a list or in an object. -/
theorem puts_of_store? (stored : step.store? heap new context = some later) :
    (∃ id position, context = .list id ∧ heap.PutsItem later id position new) ∨
      ∃ id name, context = .object id ∧ heap.PutsField later id name new := by
  cases step with
  | member name quoted =>
    cases context <;> simp only [store?, reduceCtorEq] at stored
    exact .inr ⟨_, name, rfl, Heap.putsField_of_write? stored⟩
  | item index =>
    cases context <;> simp only [store?, reduceCtorEq] at stored
    obtain ⟨position, _, changed⟩ := Option.bind_eq_some_iff.mp stored
    exact .inl ⟨_, position, rfl, Heap.putsItem_of_replace? changed⟩

/-- The type that is inferred from a value is the same after a store. -/
theorem typed_of_store? (stored : step.store? heap new context = some later) (value : Value) :
    later.typed value = heap.typed value := by
  unfold Heap.typed
  congr 1
  obtain ⟨_, _, _, puts⟩ | ⟨_, _, _, puts⟩ := puts_of_store? stored
  · exact puts.staticType value
  · exact puts.staticType value

/-- Where a value was stored, it is read. -/
theorem read?_store? (stored : step.store? heap new context = some later)
    (given : ∀ id, context = .object id → heap.holds (.object id) = true) :
    step.read? later context = some ⟨new, step.keptType heap new context⟩ := by
  have typed : later.typed new = ⟨new, heap.staticType new⟩ := typed_of_store? stored new
  cases step with
  | member name quoted =>
    cases context <;> simp only [store?, reduceCtorEq] at stored
    case object id =>
      have here := (Heap.putsField_of_write? stored).here (given id rfl)
      cases found : heap.field? id name with
      | none => simp [read?, keptType, here, found, Heap.typedField, Field.plain, typed]
      | some field =>
        cases declared : field.declared with
        | none => simp [read?, keptType, here, found, Heap.typedField, declared, typed]
        | some type => simp [read?, keptType, here, found, Heap.typedField, declared]
  | item index =>
    cases context <;> simp only [store?, reduceCtorEq] at stored
    case list id =>
      obtain ⟨position, there, changed⟩ := Option.bind_eq_some_iff.mp stored
      have puts := Heap.putsItem_of_replace? changed
      simp [read?, keptType, puts.here, there, puts.inside, typed]

/-- What is read from other values than the one that a value is stored in is the same as before. -/
theorem read?_store?_other (stored : step.store? heap new context = some later) (apart : other ≠ context)
    (reading : Step) : reading.read? later other = reading.read? heap other := by
  have typed := typed_of_store? stored
  have items (id : ListId) (here : other = .list id) : later.items id = heap.items id := by
    obtain ⟨changed, _, rfl, puts⟩ | ⟨_, _, _, puts⟩ := puts_of_store? stored
    · exact puts.lists fun same => apart (by rw [here, same])
    · exact puts.lists id
  have fields (id : ObjectId) (here : other = .object id) : later.object id = heap.object id := by
    obtain ⟨_, _, _, puts⟩ | ⟨changed, _, rfl, puts⟩ := puts_of_store? stored
    · exact puts.objects id
    · exact puts.objects fun same => apart (by rw [here, same])
  cases reading with
  | member name quoted =>
    cases other with
    | object id =>
      have same : later.typedField = heap.typedField := by
        funext field
        simp only [Heap.typedField, typed]
      simp only [read?, Heap.field?, fields id rfl, same]
    | list id => cases quoted <;> simp [read?, Property.length?, items id rfl, typed]
    | _ => cases quoted <;> simp [read?, Property.length?, typed]
  | item index =>
    have same : later.typed = heap.typed := funext typed
    cases other with
    | list id => simp only [read?, items id rfl, same]
    | text text => simp only [read?, same]
    | _ => rfl

end Path.Step

/-! ## Locations -/

/-- A place where a value can stand: a variable, or where a step leads from a value. -/
inductive Location where
  | binding (name : String)
  | below (context : Value) (step : Step)

namespace Location

/-- What stands at a location. -/
def read? (memory : Memory W) : Location → Option TypedValue
  | binding name => memory.bindings.get? name
  | below context step => step.read? memory.store.heap context

/-- What there is after a value was put at a location. -/
def put? (memory : Memory W) (value : TypedValue) : Location → Option (Memory W)
  | binding name => some { memory with bindings := memory.bindings.insert name value }
  | below context step => (step.store? memory.store.heap value.value context).map fun heap =>
    { memory with store := { memory.store with heap := heap } }

/-- The type with which a value stands at a location where it was put: its own at a variable, else the
declared type of a field that has one, else the type that is inferred from it. -/
def keptType (memory : Memory W) (value : TypedValue) : Location → StaticType
  | binding _ => value.type
  | below context step => step.keptType memory.store.heap value.value context

/-- If a location is below an object, the object's handle was given out. -/
def Given (memory : Memory W) : Location → Prop
  | below (.object id) _ => memory.store.heap.holds (.object id) = true
  | _ => True

/-- What was put at a location stands there. -/
theorem read?_put? {memory later : Memory W} {value : TypedValue} {location : Location}
    (put : location.put? memory value = some later) (given : location.Given memory) :
    location.read? later = some ⟨value.value, location.keptType memory value⟩ := by
  cases location with
  | binding name =>
    obtain rfl := Option.some.inj put
    exact (Table.get?_insert ..).trans (if_pos rfl)
  | below context step =>
    obtain ⟨heap, stored, rfl⟩ := Option.map_eq_some_iff.mp put
    refine Step.read?_store? stored fun id here => ?_
    subst here
    exact given

end Location

/-! ## Expressions that lead to locations -/

/-- Going to the location that an expression denotes leads from a state to the location, and to what there is
when it is reached. A chain is read in front of its last segment; the key of an index is evaluated; every node
is one level of nesting. -/
inductive Expr.Locates [Host W] : Expr → State W → Location → Memory W → Prop where
  | reference {name : String} {span : Span} {state : State W} (room : state.exhausted? = none)
    (free : Variable.isAssignable name = true) :
    Locates (.reference name span) state (.binding name) state.memory
  | property {name : String} {dotted : Bool} {span : Span} {state : State W}
    (room : state.exhausted? = none) :
    Locates (.property name dotted span) state (.below state.current.value (.member name false)) state.memory
  | indexer {index : Expr} {span : Span} {state reached : State W} {key : Value} {step : Step}
    (room : state.exhausted? = none)
    (read : (Indexer.key index.evaluate).outcome state.enter = (.ok key, reached))
    (keyed : Step.ofKey? key = some step) :
    Locates (.indexer index span) state (.below state.current.value step) reached.memory
  | alone {head : Expr} {span : Span} {state : State W} {location : Location} {memory : Memory W}
    (room : state.exhausted? = none) (inside : Locates head state.enter location memory) :
    Locates (.chain head [] span) state location memory
  | last {head final : Expr} {tail : List Expr} {span : Span} {state reached : State W}
    {target : TypedValue} {location : Location} {memory : Memory W} (room : state.exhausted? = none)
    (ending : tail.getLast? = some final)
    (read : (Chain.read true head.node (tail.dropLast.map Expr.node)).outcome state.enter =
      (.ok target, reached)) (inside : Locates final (reached.push target) location memory) :
    Locates (.chain head tail span) state location memory

/-- Whether errors would be moved does not matter to what is read. -/
theorem Chain.follow_ok_iff {left right : Bool} {segments : List (Node W)} {value result : TypedValue}
    {state final : State W} :
    (follow left segments value).outcome state = (.ok result, final) ↔
      (follow right segments value).outcome state = (.ok result, final) := by
  induction segments generalizing value state with
  | nil => rfl
  | cons segment rest ih =>
    simp only [follow, Eval.bind_ok_iff, Eval.inScope_ok_iff, Eval.positioned_ok_iff]
    exact exists_congr fun next => exists_congr fun reached => and_congr_right fun _ => ih

theorem Chain.read_ok_iff {left right : Bool} {head : Node W} {middle : List (Node W)} {result : TypedValue}
    {state final : State W} :
    (read left head middle).outcome state = (.ok result, final) ↔
      (read right head middle).outcome state = (.ok result, final) := by
  simp only [read, Eval.bind_ok_iff, Eval.positioned_ok_iff]
  exact exists_congr fun first => exists_congr fun reached => and_congr_right fun _ => follow_ok_iff

/-- A head with nothing behind it is read by evaluating it. -/
theorem Chain.read_nil_ok_iff {head : Node W} {correct : Bool} {result : TypedValue} {state final : State W} :
    (read correct head []).outcome state = (.ok result, final) ↔
      head.evaluate.outcome state = (.ok result, final) := by
  simp only [read, follow, Eval.bind_ok_iff, Eval.positioned_ok_iff, Eval.pure_ok_iff]
  constructor
  · rintro ⟨_, _, run, rfl, rfl⟩
    exact run
  · exact fun run => ⟨_, _, run, rfl, rfl⟩

/-- The value of a chain is what is read up to its end. -/
theorem Chain.evaluate_ok_iff {head : Node W} {tail : List (Node W)} {result : TypedValue}
    {state final : State W} :
    (evaluate head tail).outcome state = (.ok result, final) ↔
      (read true head tail).outcome state = (.ok result, final) := by
  cases tail with
  | nil => exact read_nil_ok_iff.symm
  | cons segment rest => rfl

namespace Expr

section
variable [Host W] {realm : Realm} (writes : realm.Writing) {state final : State W} {location : Location}
  {memory : Memory W}

include writes

theorem holds_read {head : Expr} {middle : List Expr} {correct : Bool} {target : TypedValue}
    (holds : realm.Holds state)
    (read : (Chain.read correct head.node (middle.map node)).outcome state = (.ok target, final)) :
    realm.Holds (final.push target) := by
  have keeps : realm.Keeps realm.values (Chain.read correct head.node (middle.map (node (W := W)))) := by
    refine Realm.keeps_read correct (Realm.keptBy_node writes head).toReadBy ?_
    rw [List.forall_mem_map]
    exact fun e _ => (Realm.keptBy_node writes e).toReadBy
  obtain ⟨holds', result⟩ := keeps state holds
  rw [read] at holds' result
  exact holds'.push (result rfl)

/-- In a realm, storing succeeds by putting the value at the location that the expression leads to. -/
theorem locates_of_store (e : Expr) {value : TypedValue} (holds : realm.Holds state)
    (stored : (e.store value).outcome state = (.ok (), final)) :
    ∃ location memory, e.Locates state location memory ∧
      location.put? memory value = some final.memory := by
  induction e generalizing state final with
  | literal _ _ | method _ _ _ _ _ | assign _ _ _ _ _ =>
    obtain ⟨_, _, inside, _⟩ := Eval.inNode_ok_iff.mp stored
    cases inside
  | property name dotted span =>
    obtain ⟨room, reached, inside, rfl⟩ := Eval.inNode_ok_iff.mp stored
    obtain ⟨heap, put, rfl⟩ := (Property.assign_ok_iff (writes.hostless holds.enter.current)).mp inside
    exact ⟨_, _, .property room, Option.map_eq_some_iff.mpr ⟨heap, put, rfl⟩⟩
  | reference name span =>
    obtain ⟨room, reached, inside, rfl⟩ := Eval.inNode_ok_iff.mp stored
    change (Variable.assign name span value).outcome state.enter = _ at inside
    unfold Variable.assign at inside
    split at inside
    · next free =>
      obtain ⟨-, rfl⟩ := Prod.mk.inj inside
      exact ⟨_, _, .reference room free, rfl⟩
    · cases inside
  | indexer index span _ =>
    change (Eval.inNode span (Indexer.assign index.evaluate span value)).outcome state = _ at stored
    obtain ⟨room, reached, inside, rfl⟩ := Eval.inNode_ok_iff.mp stored
    obtain ⟨key, between, step, heap, read, keyed, put, rfl⟩ :=
      (Indexer.assign_ok_iff (writes.hostless holds.enter.current)).mp inside
    exact ⟨_, _, .indexer room read keyed, Option.map_eq_some_iff.mpr ⟨heap, put, rfl⟩⟩
  | chain head tail span ofHead ofTail =>
    obtain ⟨room, reached, inside, rfl⟩ := Eval.inNode_ok_iff.mp stored
    change (Chain.atLast head.node (nodes tail) (·.assign value)).outcome state.enter = _ at inside
    rw [nodes_eq_map] at inside
    rcases List.eq_nil_or_concat tail with rfl | ⟨middle, last, split⟩
    · obtain ⟨location, memory, located, put⟩ := ofHead holds.enter inside
      exact ⟨location, memory, .alone room located, put⟩
    · rw [List.concat_eq_append] at split
      subst split
      rw [List.map_append, List.map_singleton, Chain.atLast_concat, Eval.outcome_get_bind,
        Eval.bind_ok_iff] at inside
      obtain ⟨target, between, read, within⟩ := inside
      obtain ⟨last', operated, rfl⟩ := Eval.inScope_ok_iff.mp within
      rw [Eval.positioned_ok_iff] at operated
      obtain ⟨location, memory, located, put⟩ :=
        ofTail last (by simp) (holds_read writes holds.enter read) operated
      refine ⟨location, memory, .last room List.getLast?_concat ?_ located, put⟩
      rw [List.dropLast_concat]
      exact Chain.read_ok_iff.mp read

/-- On the way to a location a realm is not left. -/
theorem Locates.inRealm {e : Expr} (located : e.Locates state location memory) (holds : realm.Holds state) :
    realm.heaps memory.store.heap ∧ ∀ context step, location = .below context step →
      ∃ typed, realm.values typed ∧ typed.value = context := by
  induction located with
  | reference _ _ => exact ⟨holds.heap, fun _ _ same => nomatch same⟩
  | property _ =>
    refine ⟨holds.heap, fun context step same => ?_⟩
    obtain ⟨rfl, -⟩ := Location.below.inj same
    exact ⟨_, holds.current, rfl⟩
  | @indexer index span state reached key step room read keyed =>
    obtain ⟨holds', -⟩ := Realm.keeps_key (Realm.keptBy_node writes index).evaluate _ holds.enter
    change realm.Holds ((Indexer.key index.evaluate).outcome state.enter).2 at holds'
    rw [read] at holds'
    refine ⟨holds'.heap, fun context step same => ?_⟩
    obtain ⟨rfl, -⟩ := Location.below.inj same
    exact ⟨_, holds.current, rfl⟩
  | alone _ _ ih => exact ih holds.enter
  | last _ _ read _ ih => exact ih (holds_read writes holds.enter read)

end

/-- Evaluating an expression that leads to a location reads what stands there. -/
theorem evaluate_of_locates [Host W] {e : Expr} {state : State W} {location : Location} {memory : Memory W}
    {result : TypedValue} (located : e.Locates state location memory)
    (read : location.read? memory = some result) :
    ∃ final, e.evaluate.outcome state = (.ok result, final) ∧ final.memory = memory := by
  induction located with
  | @reference name span state room free =>
    have apart : name ≠ Variable.this ∧ name ≠ Variable.root := by simpa [Variable.isAssignable] using free
    have inside : (Variable.evaluate name span).outcome state.enter = (.ok result, state.enter) := by
      rw [Variable.evaluate, Eval.outcome_get_bind, if_neg apart.1, if_neg apart.2]
      exact Eval.orFault_ok_iff.mpr ⟨read, rfl⟩
    exact ⟨_, Eval.inNode_ok_iff.mpr ⟨room, _, inside, rfl⟩, rfl⟩
  | @property name dotted span state room =>
    have hostless : ∀ id, state.enter.current.value ≠ .host id := Path.Step.not_read?_host read
    have inside : (Property.evaluate name span).outcome state.enter = (.ok result, state.enter) :=
      (Property.evaluate_ok_iff hostless).mpr ⟨read, rfl⟩
    exact ⟨_, Eval.inNode_ok_iff.mpr ⟨room, _, inside, rfl⟩, rfl⟩
  | @indexer index span state reached key step room keyRead keyed =>
    have hostless : ∀ id, state.enter.current.value ≠ .host id := Path.Step.not_read?_host read
    have inside : (Indexer.evaluate index.evaluate span).outcome state.enter = (.ok result, reached) :=
      (Indexer.evaluate_ok_iff hostless).mpr ⟨key, step, keyRead, keyed, read⟩
    exact ⟨_, Eval.inNode_ok_iff.mpr ⟨room, _, inside, rfl⟩, rfl⟩
  | @alone head span state location memory room _ ih =>
    obtain ⟨final, run, same⟩ := ih read
    exact ⟨final.leave, Eval.inNode_ok_iff.mpr ⟨room, _, run, rfl⟩, same⟩
  | @last head final tail span state reached target location memory room ending before _ ih =>
    obtain ⟨inner, run, same⟩ := ih read
    obtain ⟨middle, rfl⟩ : ∃ middle, tail = middle ++ [final] :=
      ⟨tail.dropLast, (List.dropLast_append_getLast? final ending).symm⟩
    rw [List.dropLast_concat] at before
    have inside : (Chain.evaluate head.node ((middle ++ [final]).map node)).outcome state.enter =
        (.ok result, inner.cut reached.contexts.length) := by
      rw [List.map_append, List.map_singleton, Chain.evaluate_concat, Eval.bind_ok_iff]
      refine ⟨target, reached, before, Eval.inScope_ok_iff.mpr ⟨inner, ?_, rfl⟩⟩
      exact Eval.positioned_ok_iff.mpr run
    rw [← nodes_eq_map] at inside
    exact ⟨_, Eval.inNode_ok_iff.mpr ⟨room, _, inside, rfl⟩, same⟩

end Expr

/-! ## States in which nodes may nest alike -/

/-- In one state nodes may nest as deep as in another. -/
structure State.AsDeep (other state : State W) : Prop where
  depth : other.depth = state.depth
  config : other.config = state.config

namespace State.AsDeep

variable {state other final final' : State W}

theorem refl (state : State W) : state.AsDeep state := ⟨rfl, rfl⟩

theorem exhausted? (alike : other.AsDeep state) : other.exhausted? = state.exhausted? := by
  rw [State.exhausted?, State.exhausted?, alike.depth, alike.config]

theorem enter (alike : other.AsDeep state) : other.enter.AsDeep state.enter :=
  ⟨congrArg (· + 1) alike.depth, alike.config⟩

theorem push (alike : other.AsDeep state) (value value' : TypedValue) :
    (other.push value').AsDeep (state.push value) :=
  ⟨alike.depth, alike.config⟩

theorem of_balanced (balanced : state.Balanced final) : final.AsDeep state :=
  ⟨balanced.depth, balanced.config⟩

/-- Two balanced runs lead to such states from such states. -/
theorem after (alike : other.AsDeep state) (balanced : state.Balanced final)
    (balanced' : other.Balanced final') : final'.AsDeep final :=
  ⟨balanced'.depth.trans (alike.depth.trans balanced.depth.symm),
    balanced'.config.trans (alike.config.trans balanced.config.symm)⟩

end State.AsDeep

/-! ## Steps as expressions -/

/-- Whether an expression is a single step: a property, or an index whose key is a literal. -/
def Expr.IsStep : Expr → Prop
  | property _ _ _ => True
  | indexer (literal _ _) _ => True
  | _ => False

section
variable [Host W] {state other final : State W}

/-- A literal as a key is read wherever there is room for one node more, and changes nothing but counts. -/
theorem Indexer.key_literal_ok_iff {value : Literal} {span : Span} {key : Value} :
    (Indexer.key (Expr.literal value span).evaluate).outcome state = (.ok key, final) ↔
      state.exhausted? = none ∧ value.typed.value = key ∧
        (state.push state.root).enter.leave.cut state.contexts.length = final := by
  have room : (state.push state.root).exhausted? = state.exhausted? := rfl
  have literal {typed : TypedValue} {reached : State W} :
      (Expr.literal value span).evaluate.outcome (state.push state.root) = (.ok typed, reached) ↔
        state.exhausted? = none ∧ value.typed = typed ∧ (state.push state.root).enter.leave = reached := by
    rw [← room]
    refine Eval.inNode_ok_iff.trans (and_congr_right fun _ => ?_)
    constructor
    · rintro ⟨inner, inside, rfl⟩
      obtain ⟨rfl, rfl⟩ := Eval.pure_ok_iff.mp inside
      exact ⟨rfl, rfl⟩
    · rintro ⟨rfl, rfl⟩
      exact ⟨_, Eval.pure_ok_iff.mpr ⟨rfl, rfl⟩, rfl⟩
  simp only [Indexer.key, Eval.outcome_get_bind, Eval.bind_ok_iff, Eval.inScope_ok_iff, Eval.pure_ok_iff,
    literal]
  constructor
  · rintro ⟨_, _, ⟨_, ⟨room, rfl, rfl⟩, rfl⟩, rfl, rfl⟩
    exact ⟨room, rfl, rfl⟩
  · rintro ⟨room, rfl, rfl⟩
    exact ⟨_, _, ⟨_, ⟨room, rfl, rfl⟩, rfl⟩, rfl, rfl⟩

/-- A step that leads to a location below the active context leads, as deep in other nodes, to the location
below whatever other context is active. -/
theorem Expr.Locates.again {e : Expr} (isStep : e.IsStep) {location : Location} {memory : Memory W}
    (located : e.Locates state location memory) (alike : other.AsDeep state) :
    ∃ step, location = .below state.current.value step ∧ memory = state.memory ∧
      e.Locates other (.below other.current.value step) other.memory := by
  cases located with
  | property room => exact ⟨_, rfl, rfl, .property (alike.exhausted?.trans room)⟩
  | @indexer index span _ reached key step room read keyed =>
    cases index with
    | literal value inner =>
      obtain ⟨deeper, rfl, rfl⟩ := Indexer.key_literal_ok_iff.mp read
      have read' : (Indexer.key (literal value inner).evaluate).outcome other.enter =
          (.ok value.typed.value, _) :=
        Indexer.key_literal_ok_iff.mpr ⟨alike.enter.exhausted?.trans deeper, rfl, rfl⟩
      have there : (Expr.indexer (.literal value inner) span).Locates other
          (.below other.current.value step) _ := .indexer (alike.exhausted?.trans room) read' keyed
      exact ⟨step, rfl, rfl, there⟩
    | _ => exact isStep.elim
  | _ => exact isStep.elim

end

end DotChain
