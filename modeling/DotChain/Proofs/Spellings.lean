import DotChain.Proofs.Flattening
import DotChain.Proofs.Locations

/-!
# Two spellings of one access

A property can also be selected by its name as an index, an item of a list by an index or by a method, and a
length by a property or by a method. Main statement: `spellings_agree`, either spelling has the same value, or
fails alike but for the place, and has the same effects. An index with a literal enters one node more than a
property does and adds a context for a while, so there the counts differ.
-/

namespace DotChain

variable {W α β : Type}

/-! ## Runs that end alike -/

/-- Two runs end with the same value, or with failures that differ in their places at most. -/
def EndAlike (run other : Except Failure α × State W) : Prop :=
  other.1.mapError Failure.unplaced = run.1.mapError Failure.unplaced

/-- The same state with other counts. -/
def State.withCounters (state : State W) (counters : Counters) : State W := { state with counters := counters }

/-- Two runs end alike, and in states that differ in their counts at most. -/
structure Interchangeable (run other : Except Failure α × State W) : Prop where
  result : EndAlike run other
  state : ∃ counters, other.2 = run.2.withCounters counters

/-- Two runs end alike, and in the same state. -/
structure Equivalent (run other : Except Failure α × State W) : Prop where
  result : EndAlike run other
  state : other.2 = run.2

section
variable {first second : Eval W α} {state : State W}

/-- Nodes are interchangeable if what is inside them is and both may be entered. -/
theorem interchangeable_inNode (a b : Span) (room : state.exhausted? = none)
    (inside : Interchangeable (first.outcome state.enter) (second.outcome state.enter)) :
    Interchangeable ((Eval.inNode a first).outcome state) ((Eval.inNode b second).outcome state) := by
  obtain ⟨result, counters, reached⟩ := inside
  rw [Eval.outcome_inNode, Eval.outcome_inNode, room]
  exact ⟨result, counters, congrArg State.leave reached⟩

/-- Nodes are equivalent if what is inside them is: where one may not be entered, neither may the other. -/
theorem equivalent_inNode (a b : Span)
    (inside : Equivalent (first.outcome state.enter) (second.outcome state.enter)) :
    Equivalent ((Eval.inNode a first).outcome state) ((Eval.inNode b second).outcome state) := by
  obtain ⟨result, reached⟩ := inside
  rw [Eval.outcome_inNode, Eval.outcome_inNode]
  cases state.exhausted? with
  | some limit => exact ⟨rfl, rfl⟩
  | none => exact ⟨result, congrArg State.leave reached⟩

end

/-- What follows has to be interchangeable after a success, whatever the counts are then. -/
theorem Interchangeable.bind {first other : Eval W α} {next next' : α → Eval W β} {s t : State W}
    (before : Interchangeable (first.outcome s) (other.outcome t))
    (after : ∀ value reached counters,
      Interchangeable ((next value).outcome reached) ((next' value).outcome (reached.withCounters counters))) :
    Interchangeable ((first >>= next).outcome s) ((other >>= next').outcome t) := by
  rw [Eval.outcome_bind, Eval.outcome_bind]
  generalize first.outcome s = run at before
  generalize other.outcome t = run' at before
  obtain ⟨result, reached⟩ := run
  obtain ⟨result', reached'⟩ := run'
  obtain ⟨same, counters, rfl⟩ := before
  cases result with
  | error failure =>
    cases result' with
    | error failure' => exact ⟨congrArg Except.error (Except.error.inj same), counters, rfl⟩
    | ok value' => cases same
  | ok value =>
    cases result' with
    | error failure' => cases same
    | ok value' =>
      obtain rfl := Except.ok.inj same
      exact after value' reached counters

/-! ### Steps from states that differ in their counts -/

section
variable (state : State W) (counters : Counters) (fault : Fault) (a b : Span)

theorem interchangeable_pure (value : α) : Interchangeable ((pure value : Eval W α).outcome state)
    ((pure value : Eval W α).outcome (state.withCounters counters)) := ⟨rfl, counters, rfl⟩

theorem interchangeable_fault : Interchangeable ((Eval.fault fault a : Eval W α).outcome state)
    ((Eval.fault fault b : Eval W α).outcome (state.withCounters counters)) := ⟨rfl, counters, rfl⟩

theorem interchangeable_orFault (found : Option α) :
    Interchangeable ((Eval.orFault found fault a).outcome state)
      ((Eval.orFault found fault b).outcome (state.withCounters counters)) := by
  cases found <;> exact ⟨rfl, counters, rfl⟩

theorem interchangeable_host (action : HostAction W α) : Interchangeable ((Eval.host action).outcome state)
    ((Eval.host action).outcome (state.withCounters counters)) := ⟨rfl, counters, rfl⟩

/-- The heap that a change makes takes the place of the old one. -/
theorem interchangeable_change (changed : Option Heap) : Interchangeable
    ((do set (state.withHeap (← Eval.orFault changed fault a)) : Eval W Unit).outcome state)
    ((do set ((state.withCounters counters).withHeap (← Eval.orFault changed fault b)) : Eval W Unit).outcome
      (state.withCounters counters)) := by
  cases changed <;> exact ⟨rfl, counters, rfl⟩

/-- What the application answers becomes a value, or is missed. -/
theorem interchangeable_answer (action : HostAction W (Option Value)) : Interchangeable
    ((do
      let value ← Eval.orFault (← Eval.host action) fault a
      return (← get).heap.typed value : Eval W TypedValue).outcome state)
    ((do
      let value ← Eval.orFault (← Eval.host action) fault b
      return (← get).heap.typed value : Eval W TypedValue).outcome (state.withCounters counters)) :=
  (interchangeable_host state counters action).bind fun found reached counters =>
    (interchangeable_orFault reached counters fault a b found).bind fun value reached counters =>
      interchangeable_pure reached counters (reached.heap.typed value)

/-- The application is told to write, and may refuse. -/
theorem interchangeable_write (action : HostAction W Bool) : Interchangeable
    ((do
      unless ← Eval.host action do Eval.fault fault a : Eval W Unit).outcome state)
    ((do
      unless ← Eval.host action do Eval.fault fault b : Eval W Unit).outcome (state.withCounters counters)) :=
  (interchangeable_host state counters action).bind fun written reached counters => by
    cases written with
    | true => exact interchangeable_pure reached counters ()
    | false => exact interchangeable_fault reached counters fault a b

end

/-! ## Literals as operands -/

/-- Where one node more may be entered than a node, the node may be. -/
theorem State.exhausted?_of_enter {state : State W} (room : state.enter.exhausted? = none) :
    state.exhausted? = none := by
  cases full : state.exhausted? with
  | none => rfl
  | some limit =>
    have limited := State.limit_of_exhausted? full
    have deep : limit ≤ state.depth := by
      refine Nat.le_of_not_lt fun below => ?_
      rw [State.exhausted?_eq_none_of_lt limited below] at full
      cases full
    have deeper : state.enter.exhausted? = some limit :=
      State.exhausted?_eq_some_of_le limited (Nat.le_succ_of_le deep)
    rw [deeper] at room
    cases room

/-- A context that was added to a state is removed again, whatever was counted in between. -/
theorem State.cut_withCounters (state : State W) (value : TypedValue) (counters : Counters) :
    ∃ others, ((state.push value).withCounters counters).cut state.contexts.length =
      state.withCounters others := by
  refine ⟨(((state.push value).withCounters counters).cut state.contexts.length).counters, ?_⟩
  simp [State.cut, State.withCounters, State.push]

section
variable {state : State W}

/-- Arguments are evaluated with the root as active context, which is removed again. -/
theorem Method.outcome_arguments_cons {first : Eval W TypedValue} {rest : List (Eval W TypedValue)}
    {values : List Value} {inner : State W}
    (read : (Method.values (first :: rest)).outcome (state.push state.root) = (.ok values, inner)) :
    (Method.arguments (first :: rest)).outcome state = (.ok values, inner.cut state.contexts.length) := by
  rw [Method.arguments, List.isEmpty_cons, if_neg Bool.false_ne_true, Eval.outcome_get_bind,
    Eval.outcome_inScope, read]

variable [Host W]

theorem Expr.outcome_literal (room : state.exhausted? = none) (value : Literal) (span : Span) :
    (Expr.literal value span).evaluate.outcome state =
      (.ok value.typed, state.withCounters state.enter.counters) := by
  change (Eval.inNode span (pure value.typed)).outcome state = _
  rw [Eval.outcome_inNode, room]
  rfl

/-- A literal as a key changes nothing but counts. -/
theorem Indexer.outcome_key_literal (room : state.exhausted? = none) (value : Literal) (span : Span) :
    ∃ counters, (Indexer.key (Expr.literal value span).evaluate).outcome state =
      (.ok value.typed.value, state.withCounters counters) := by
  obtain ⟨counters, left⟩ := state.cut_withCounters state.root (state.push state.root).enter.counters
  exact ⟨counters, Indexer.key_literal_ok_iff.mpr ⟨room, rfl, left⟩⟩

theorem Method.outcome_values_literals (room : state.exhausted? = none) (values : List Literal) (span : Span) :
    ∃ counters, (Method.values (values.map fun value => (Expr.literal value span).evaluate)).outcome state =
      (.ok (values.map (·.typed.value)), state.withCounters counters) := by
  induction values generalizing state with
  | nil => exact ⟨state.counters, rfl⟩
  | cons value values ih =>
    have first := Expr.outcome_literal room value span
    have deeper : (state.withCounters state.enter.counters).exhausted? = none := room
    obtain ⟨counters, rest⟩ := ih deeper
    refine ⟨counters, ?_⟩
    rw [List.map_cons, Method.values, Eval.outcome_bind_of_ok first, Eval.outcome_bind_of_ok rest]
    rfl

/-- Literals as arguments change nothing but counts. -/
theorem Method.outcome_arguments_literals (room : state.exhausted? = none) (values : List Literal)
    (span : Span) :
    ∃ counters, (Method.arguments (values.map fun value => (Expr.literal value span).evaluate)).outcome state =
      (.ok (values.map (·.typed.value)), state.withCounters counters) := by
  cases values with
  | nil => exact ⟨state.counters, rfl⟩
  | cons value values =>
    have deeper : (state.push state.root).exhausted? = none := room
    obtain ⟨inner, read⟩ := Method.outcome_values_literals deeper (value :: values) span
    obtain ⟨counters, left⟩ := state.cut_withCounters state.root inner
    exact ⟨counters, left ▸ Method.outcome_arguments_cons read⟩

end

/-! ## Names and keys -/

section
variable [Host W] {state : State W} {counters : Counters} {index : Eval W TypedValue} {name : String}
  (a b : Span)

/-- The active context is an object or an object of the application. -/
def State.OnFields (state : State W) : Prop :=
  (∃ id, state.current.value = .object id) ∨ ∃ id, state.current.value = .host id

theorem interchangeable_evaluate (fields : state.OnFields)
    (keyed : (Indexer.key index).outcome state = (.ok (.text name), state.withCounters counters)) :
    Interchangeable ((Property.evaluate name a).outcome state) ((Indexer.evaluate index b).outcome state) := by
  rw [Property.evaluate, Indexer.evaluate, Eval.outcome_get_bind, Eval.outcome_get_bind]
  obtain ⟨id, context⟩ | ⟨id, context⟩ := fields
  · simp only [context, Eval.outcome_bind_of_ok keyed, Eval.outcome_get_bind]
    exact interchangeable_orFault state counters _ a b _
  · simp only [context, Eval.outcome_bind_of_ok keyed, Eval.outcome_get_bind]
    exact interchangeable_answer state counters _ a b _

theorem interchangeable_assign (fields : state.OnFields) (value : TypedValue)
    (keyed : (Indexer.key index).outcome state = (.ok (.text name), state.withCounters counters)) :
    Interchangeable ((Property.assign name a value).outcome state)
      ((Indexer.assign index b value).outcome state) := by
  rw [Property.assign, Indexer.assign, Eval.outcome_get_bind, Eval.outcome_get_bind]
  obtain ⟨id, context⟩ | ⟨id, context⟩ := fields
  · simp only [context, Eval.outcome_bind_of_ok keyed, Eval.outcome_get_bind]
    exact interchangeable_change state counters _ a b _
  · simp only [context, Eval.outcome_bind_of_ok keyed, Eval.outcome_get_bind]
    exact interchangeable_write state counters _ a b _

theorem interchangeable_isAssignable (fields : state.OnFields)
    (keyed : (Indexer.key index).outcome state = (.ok (.text name), state.withCounters counters)) :
    Interchangeable ((Property.isAssignable name).outcome state)
      ((Indexer.isAssignable index).outcome state) := by
  rw [Property.isAssignable, Indexer.isAssignable, Eval.outcome_get_bind, Eval.outcome_get_bind]
  obtain ⟨id, context⟩ | ⟨id, context⟩ := fields
  · simp only [context, Eval.outcome_bind_of_ok keyed, Eval.outcome_get_bind]
    exact interchangeable_pure state counters _
  · simp only [context, Eval.outcome_bind_of_ok keyed, Eval.outcome_get_bind]
    exact interchangeable_host state counters _

theorem evaluates_iff {id : ObjectId} (context : state.current.value = .object id) :
    (∃ value, ((Property.evaluate name a).outcome state).1 = .ok value) ↔
      (state.heap.object id).fields.contains name = true := by
  have contains : (state.heap.object id).fields.contains name = (state.heap.field? id name).isSome := rfl
  rw [Property.evaluate, Eval.outcome_get_bind, contains]
  simp only [context, Eval.outcome_orFault]
  cases state.heap.field? id name <;> simp

theorem outcome_containsKey {id : ObjectId} (context : state.current.value = .object id)
    {args : List (Eval W TypedValue)}
    (given : (Method.arguments args).outcome state = (.ok [.text name], state.withCounters counters)) :
    (Method.evaluate "containsKey" args a).outcome state =
      (.ok ⟨.bool ((state.heap.object id).fields.contains name), .bool⟩, state.withCounters counters) := by
  rw [Method.evaluate, Eval.outcome_get_bind, Eval.outcome_bind_of_ok given]
  simp only [context, Eval.outcome_get_bind]
  rfl

end

/-! ## Items and lengths -/

/-- One argument is evaluated as a key is. -/
theorem Method.arguments_singleton (index : Eval W TypedValue) :
    Method.arguments [index] = (fun key => [key]) <$> Indexer.key index := by
  simp [Method.arguments, Indexer.key, Method.values, Eval.map_inScope]

/-- The item that a method selects is the one that an index selects. -/
theorem Method.builtIn_get (heap : Heap) (id : ListId) (i : Int64) :
    Method.builtIn heap (.list id) "get" [.int i] =
      match (slot? i (heap.items id).length).bind ((heap.items id)[·]?) with
      | some item => .ok item
      | none => .error (.indexOutOfBounds i (heap.items id).length) := rfl

section
variable [Host W] {state : State W} {index : Eval W TypedValue} (a b : Span)

theorem equivalent_item {id : ListId} (context : state.current.value = .list id)
    (keys : ∀ key reached, (Indexer.key index).outcome state = (.ok key, reached) → ∃ i, key = .int i) :
    Equivalent ((Indexer.evaluate index a).outcome state)
      ((Method.evaluate "get" [index] b).outcome state) := by
  rw [Indexer.evaluate, Method.evaluate, Eval.outcome_get_bind, Eval.outcome_get_bind,
    Method.arguments_singleton]
  cases keyed : (Indexer.key index).outcome state with
  | mk result reached =>
    have given := Eval.outcome_map (fun key => [key]) (Indexer.key index) state
    rw [keyed] at given
    cases result with
    | error failure =>
      rw [Eval.outcome_bind, keyed, Eval.outcome_bind, given]
      exact ⟨rfl, rfl⟩
    | ok key =>
      obtain ⟨i, rfl⟩ := keys key reached keyed
      simp only [Eval.outcome_bind_of_ok keyed, Eval.outcome_bind_of_ok given, Eval.outcome_get_bind, context]
      rw [Method.builtIn_get]
      cases (slot? i (reached.heap.items id).length).bind ((reached.heap.items id)[·]?) with
      | none => exact ⟨rfl, rfl⟩
      | some item => exact ⟨rfl, rfl⟩

theorem equivalent_size {id : ListId} (context : state.current.value = .list id) :
    Equivalent ((Property.evaluate "size" a).outcome state) ((Method.evaluate "size" [] b).outcome state) := by
  have given : (Method.arguments []).outcome state = (.ok [], state) := rfl
  rw [Property.evaluate, Method.evaluate, Eval.outcome_get_bind, Eval.outcome_get_bind,
    Eval.outcome_bind_of_ok given, context]
  exact ⟨rfl, rfl⟩

theorem equivalent_length {text : String} (context : state.current.value = .text text) :
    Equivalent ((Property.evaluate "length" a).outcome state)
      ((Method.evaluate "length" [] b).outcome state) := by
  have given : (Method.arguments []).outcome state = (.ok [], state) := rfl
  rw [Property.evaluate, Method.evaluate, Eval.outcome_get_bind, Eval.outcome_get_bind,
    Eval.outcome_bind_of_ok given, context]
  exact ⟨rfl, rfl⟩

/-- An access that can be spelled in two ways is the same access. On an object of either kind a name may stand
as a property or as a key; an object contains a key exactly if it has the property of that name; an item of
a list may be selected by an index or by a method, even where the index has effects or fails; and the length of
a list or string is a property and a method. -/
theorem spellings_agree (state : State W) (dotted : Bool) (a b c : Span) :
    (∀ name value, state.OnFields → state.enter.exhausted? = none →
      Interchangeable ((Expr.property name dotted a).evaluate.outcome state)
        ((Expr.indexer (.literal (.text name) b) c).evaluate.outcome state) ∧
      Interchangeable (((Expr.property name dotted a).store value).outcome state)
        (((Expr.indexer (.literal (.text name) b) c).store value).outcome state) ∧
      Interchangeable ((Expr.property name dotted a).isAssignable.outcome state)
        ((Expr.indexer (.literal (.text name) b) c).isAssignable.outcome state)) ∧
    (∀ id name, state.current.value = .object id → state.enter.exhausted? = none →
      ∃ found,
        ((Expr.method "containsKey" [.literal (.text name) b] dotted c).evaluate.outcome state).1 =
          .ok ⟨.bool found, .bool⟩ ∧
        (found = true ↔
          ∃ value, ((Expr.property name dotted a).evaluate.outcome state).1 = .ok value)) ∧
    (∀ id index, state.current.value = .list id →
      (∀ value, (index.evaluate.outcome (state.enter.push state.root)).1 = .ok value →
        ∃ i, value.value = .int i) →
      Equivalent ((Expr.indexer index a).evaluate.outcome state)
        ((Expr.method "get" [index] dotted b).evaluate.outcome state)) ∧
    (∀ id, state.current.value = .list id →
      Equivalent ((Expr.property "size" dotted a).evaluate.outcome state)
        ((Expr.method "size" [] dotted b).evaluate.outcome state)) ∧
    ∀ text, state.current.value = .text text →
      Equivalent ((Expr.property "length" dotted a).evaluate.outcome state)
        ((Expr.method "length" [] dotted b).evaluate.outcome state) := by
  refine ⟨fun name value fields room => ?_, fun id name context room => ?_,
    fun id index context keys => ?_, fun id context => ?_, fun text context => ?_⟩
  · -- The key is a node inside the index, so it is there that one level more has to be left.
    obtain ⟨counters, keyed⟩ := Indexer.outcome_key_literal room (.text name) b
    have room := State.exhausted?_of_enter room
    have fields : state.enter.OnFields := fields
    exact ⟨interchangeable_inNode a c room (interchangeable_evaluate a c fields keyed),
      interchangeable_inNode a c room (interchangeable_assign a c fields value keyed),
      interchangeable_inNode a c room (interchangeable_isAssignable fields keyed)⟩
  · obtain ⟨counters, given⟩ := Method.outcome_arguments_literals room [.text name] b
    have room := State.exhausted?_of_enter room
    have context : state.enter.current.value = .object id := context
    refine ⟨(state.enter.heap.object id).fields.contains name, ?_, ?_⟩
    · exact (Eval.result_inNode room c _).trans (congrArg Prod.fst (outcome_containsKey c context given))
    · have evaluated : ((Expr.property name dotted a).evaluate.outcome state).1 =
          ((Property.evaluate name a).outcome state.enter).1 := Eval.result_inNode room a _
      rw [evaluated]
      exact (evaluates_iff a context).symm
  · refine equivalent_inNode a b (equivalent_item a b context fun key reached keyed => ?_)
    rw [Indexer.key, Eval.outcome_get_bind, Eval.bind_ok_iff] at keyed
    obtain ⟨value, _, read, same⟩ := keyed
    obtain ⟨_, evaluated, -⟩ := Eval.inScope_ok_iff.mp read
    obtain ⟨rfl, -⟩ := Eval.pure_ok_iff.mp same
    exact keys value (congrArg Prod.fst evaluated)
  · exact equivalent_inNode a b (equivalent_size a b context)
  · exact equivalent_inNode a b (equivalent_length a b context)

end

/-- An object with a number, a list and a property of a type of its own that may not be written. -/
private def sheltered : State Unit :=
  .initial ⟨.object ⟨0⟩, .object⟩ .standard
    ⟨⟨#[[.bool true, .bool false]],
      #[⟨none, .ofList [("n", .plain (.int 1)), ("sealed", ⟨.int 7, false, some (.named "Serial")⟩),
        ("xs", .plain (.list ⟨0⟩))]⟩], #[]⟩, ()⟩

/-- The property keeps its type under either spelling and refuses to be written under either. The list has an
item at the number, which is found by index and by method. -/
theorem spellings_agree_sealed :
    let dotted := Expr.property "sealed" true ⟨0, 6⟩
    let keyed := Expr.indexer (.literal (.text "sealed") ⟨1, 9⟩) ⟨0, 10⟩
    let place := Expr.property "n" false ⟨1, 2⟩
    let inList := sheltered.push ⟨.list ⟨0⟩, .list⟩
    (Interchangeable (dotted.evaluate.outcome sheltered) (keyed.evaluate.outcome sheltered) ∧
      Interchangeable ((dotted.store ⟨.int 8, .int⟩).outcome sheltered)
        ((keyed.store ⟨.int 8, .int⟩).outcome sheltered)) ∧
    (∃ found, ((Expr.method "containsKey" [.literal (.text "sealed") ⟨1, 9⟩] true ⟨0, 10⟩).evaluate.outcome
        sheltered).1 = .ok ⟨.bool found, .bool⟩ ∧
      (found = true ↔ ∃ value, (dotted.evaluate.outcome sheltered).1 = .ok value)) ∧
    Equivalent ((Expr.indexer place ⟨0, 6⟩).evaluate.outcome inList)
      ((Expr.method "get" [place] true ⟨1, 9⟩).evaluate.outcome inList) ∧
    (dotted.evaluate.outcome sheltered).1 = .ok ⟨.int 7, .named "Serial"⟩ := by
  intro dotted keyed place inList
  obtain ⟨fields, contains, -⟩ := spellings_agree sheltered true ⟨0, 6⟩ ⟨1, 9⟩ ⟨0, 10⟩
  obtain ⟨evaluated, stored, -⟩ := fields "sealed" ⟨.int 8, .int⟩ (.inl ⟨⟨0⟩, rfl⟩) rfl
  obtain ⟨-, -, items, -⟩ := spellings_agree inList true ⟨0, 6⟩ ⟨1, 9⟩ ⟨0, 10⟩
  refine ⟨⟨evaluated, stored⟩, contains ⟨0⟩ "sealed" rfl rfl, items ⟨0⟩ place rfl fun value found => ?_, rfl⟩
  have number : (place.evaluate.outcome (inList.enter.push inList.root)).1 = .ok ⟨.int 1, .int⟩ := rfl
  obtain rfl := Except.ok.inj (number.symm.trans found)
  exact ⟨1, rfl⟩

end DotChain
