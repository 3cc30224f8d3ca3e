import DotChain.Meaning
import DotChain.Outcome
import DotChain.Proofs.Persistence
import DotChain.Reach

/-!
# Realms

A realm is a set of values that an evaluation does not leave: what is read from its values is in it again,
and storing them keeps its heaps. No object of an application is in a realm, so that there is nothing in the
way of an evaluation but lists, objects and scalars. Main statements: `Realm.keptBy_node`, an expression
leads from values of a realm to values of the realm, `Realm.readBy_node`, for a realm that only the steps of
reading keep to and an expression without assignments, and `Realm.session`, for any number of operations.

Values outside the realm are never made active, never bound and never returned. Hence the law of
computations (`Law`), which speaks of scopes for all values, does not serve here.
-/

namespace DotChain

variable {W α β : Type}

/-- Which heaps there may be and which values there may be in a state. -/
structure Realm where
  heaps : Heap → Prop
  values : TypedValue → Prop

namespace Realm

/-- What the steps of reading ask of a realm: what they find in a value of the realm is one. -/
structure Reading (realm : Realm) : Prop where
  scalar {value : Value} (scalar : value.IsScalar) (heap : Heap) : realm.values (heap.typed value)
  hostless {value : TypedValue} (inside : realm.values value) (id : HostId) : value.value ≠ .host id
  item {heap : Heap} {target : TypedValue} {id : ListId} {item : Value} : realm.heaps heap →
    realm.values target → target.value = .list id → item ∈ heap.items id → realm.values (heap.typed item)
  field {heap : Heap} {target : TypedValue} {id : ObjectId} {name : String} {field : Field} :
    realm.heaps heap → realm.values target → target.value = .object id →
    heap.field? id name = some field → realm.values (heap.typedField field)

/-- What the steps of reading and writing ask of a realm: storing a value of the realm in another one leaves
a heap of the realm. -/
structure Writing (realm : Realm) : Prop extends realm.Reading where
  replace {heap changed : Heap} {target value : TypedValue} {id : ListId} {position : Nat} :
    realm.heaps heap → realm.values target → target.value = .list id → realm.values value →
    heap.PutsItem changed id position value.value → realm.heaps changed
  write {heap changed : Heap} {target value : TypedValue} {id : ObjectId} {name : String} :
    realm.heaps heap → realm.values target → target.value = .object id → realm.values value →
    heap.PutsField changed id name value.value → realm.heaps changed

/-- A state in which there are values of a realm only. -/
structure Holds (realm : Realm) (state : State W) : Prop where
  heap : realm.heaps state.heap
  root : realm.values state.root
  binding {name : String} {value : TypedValue} : state.bindings.get? name = some value →
    realm.values value
  context {value : TypedValue} : value ∈ state.contexts → realm.values value

/-- A computation ends in a state of a realm, and with a result of a certain kind if it has one, when it
starts in a given state. -/
structure KeepsAt (realm : Realm) (result : α → Prop) (action : Eval W α) (state : State W) : Prop where
  holds : realm.Holds (action.outcome state).2
  result {value : α} : (action.outcome state).1 = .ok value → result value

/-- A computation leads from each state of a realm to one of the realm, with a result of a certain kind. -/
def Keeps (realm : Realm) (result : α → Prop) (action : Eval W α) : Prop :=
  ∀ state, realm.Holds state → realm.KeepsAt result action state

/-- Evaluating a node and asking it keep to a realm: the value is one of the realm. -/
structure ReadBy (realm : Realm) (node : Node W) : Prop where
  evaluate : realm.Keeps realm.values node.evaluate
  isAssignable : realm.Keeps (fun _ => True) node.isAssignable

/-- All three operations of a node keep to a realm, if what is stored is a value of the realm. -/
structure KeptBy (realm : Realm) (node : Node W) : Prop extends realm.ReadBy node where
  assign {value : TypedValue} (inside : realm.values value) :
    realm.Keeps (fun _ => True) (node.assign value)

/-! ## States -/

section
variable {realm : Realm} {state : State W}

theorem Holds.entry (holds : realm.Holds state) {value : TypedValue} (entry : state.Entry value) :
    realm.values value := by
  cases entry with
  | root => exact holds.root
  | binding bound => exact holds.binding bound
  | context active => exact holds.context active

theorem Holds.current (holds : realm.Holds state) : realm.values state.current :=
  holds.entry state.entry_current

theorem Holds.enter (holds : realm.Holds state) : realm.Holds state.enter :=
  ⟨holds.heap, holds.root, holds.binding, holds.context⟩

theorem Holds.leave (holds : realm.Holds state) : realm.Holds state.leave :=
  ⟨holds.heap, holds.root, holds.binding, holds.context⟩

theorem Holds.push (holds : realm.Holds state) {value : TypedValue} (inside : realm.values value) :
    realm.Holds (state.push value) where
  heap := holds.heap
  root := holds.root
  binding := holds.binding
  context active := by
    rcases List.mem_cons.mp active with rfl | older
    · exact inside
    · exact holds.context older

theorem Holds.cut (holds : realm.Holds state) (depth : Nat) : realm.Holds (state.cut depth) where
  heap := holds.heap
  root := holds.root
  binding := holds.binding
  context active := holds.context ((List.drop_sublist _ _).subset active)

theorem Holds.bind (holds : realm.Holds state) (name : String) {value : TypedValue}
    (inside : realm.values value) : realm.Holds (state.bind name value) where
  heap := holds.heap
  root := holds.root
  binding {other found} bound := by
    rw [State.bind, Table.get?_insert] at bound
    split at bound
    · obtain rfl := Option.some.inj bound
      exact inside
    · exact holds.binding bound
  context := holds.context

theorem Holds.withHeap (holds : realm.Holds state) {heap : Heap} (inside : realm.heaps heap) :
    realm.Holds (state.withHeap heap) :=
  ⟨inside, holds.root, holds.binding, holds.context⟩

end

/-! ## Computations -/

section
variable {realm : Realm} {state : State W} {kind : α → Prop} {after : β → Prop}

theorem keepsAt_pure (holds : realm.Holds state) {value : α} (here : kind value) :
    realm.KeepsAt kind (pure value) state := by
  refine ⟨holds, fun {other} same => ?_⟩
  obtain rfl := Except.ok.inj same
  exact here

theorem keepsAt_fault (holds : realm.Holds state) (fault : Fault) (span : Span) :
    realm.KeepsAt kind (Eval.fault fault span : Eval W α) state :=
  ⟨holds, fun same => by simp at same⟩

theorem keepsAt_orFault (holds : realm.Holds state) {found : Option α}
    (here : ∀ value, found = some value → kind value) (fault : Fault) (span : Span) :
    realm.KeepsAt kind (Eval.orFault found fault span) state := by
  cases found with
  | none => exact keepsAt_fault holds fault span
  | some value => exact keepsAt_pure holds (here value rfl)

/-- What follows starts in a state of the realm, with a result of the kind. -/
theorem keepsAt_bind {first : Eval W α} {next : α → Eval W β} (before : realm.KeepsAt kind first state)
    (then_ : ∀ value reached, kind value → realm.Holds reached → realm.KeepsAt after (next value) reached) :
    realm.KeepsAt after (first >>= next) state := by
  obtain ⟨holds, result⟩ := before
  rcases run : first.outcome state with ⟨_ | value, reached⟩
  · next failure =>
    have whole : (first >>= next).outcome state = (.error failure, reached) := by
      rw [Eval.outcome_bind, run]
    rw [run] at holds
    exact ⟨by rw [whole]; exact holds, fun same => by rw [whole] at same; cases same⟩
  · have whole : (first >>= next).outcome state = (next value).outcome reached := by
      rw [Eval.outcome_bind, run]
    rw [run] at holds result
    obtain ⟨holds', result'⟩ := then_ value reached (result rfl) holds
    exact ⟨by rw [whole]; exact holds', fun same => result' (by rwa [whole] at same)⟩

theorem keepsAt_get {next : State W → Eval W β} (then_ : realm.KeepsAt after (next state) state) :
    realm.KeepsAt after (get >>= next) state := by
  have whole := Eval.outcome_get_bind next state
  exact ⟨by rw [whole]; exact then_.holds, fun same => then_.result (by rwa [whole] at same)⟩

theorem keeps_inScope {value : TypedValue} (inside : realm.values value) {body : Eval W α}
    (keeps : realm.Keeps kind body) : realm.Keeps kind (Eval.inScope value body) := by
  intro state holds
  obtain ⟨holds', result⟩ := keeps _ (holds.push inside)
  exact ⟨holds'.cut _, fun same => result same⟩

theorem keeps_inNode {span : Span} {body : Eval W α} (keeps : realm.Keeps kind body) :
    realm.Keeps kind (Eval.inNode span body) := by
  intro state holds
  cases deep : state.exhausted? with
  | some limit =>
    have whole : (Eval.inNode span body).outcome state =
        (.error (.fault (.recursionLimit limit) span), state) := by
      rw [Eval.outcome_inNode, deep]
    exact ⟨by rw [whole]; exact holds, fun same => by rw [whole] at same; cases same⟩
  | none =>
    have whole : (Eval.inNode span body).outcome state =
        ((body.outcome state.enter).1, (body.outcome state.enter).2.leave) := by
      rw [Eval.outcome_inNode, deep]
    obtain ⟨holds', result⟩ := keeps _ holds.enter
    exact ⟨by rw [whole]; exact holds'.leave, fun same => result (by rwa [whole] at same)⟩

theorem keeps_positioned {correct : Bool} {span : Span} {body : Eval W α}
    (keeps : realm.Keeps kind body) : realm.Keeps kind (Eval.positioned correct span body) := by
  intro state holds
  obtain ⟨holds', result⟩ := keeps state holds
  refine ⟨by rw [Eval.outcome_positioned]; exact holds', fun {value} same => ?_⟩
  have run : (Eval.positioned correct span body).outcome state =
      (.ok value, ((Eval.positioned correct span body).outcome state).2) := Prod.ext same rfl
  rw [Eval.positioned_ok_iff] at run
  exact result (congrArg Prod.fst run)

/-- Going on with the heap that a change makes, with a fault if the change is refused. -/
theorem keepsAt_change (holds : realm.Holds state) {changed : Option Heap}
    (inside : ∀ heap, changed = some heap → realm.heaps heap) (fault : Fault) (span : Span) :
    realm.KeepsAt (fun _ => True)
      (do set (state.withHeap (← Eval.orFault changed fault span)) : Eval W Unit) state := by
  cases changed with
  | none => exact keepsAt_fault holds fault span
  | some heap => exact ⟨holds.withHeap (inside heap rfl), fun _ => trivial⟩

end

end Realm

/-! ## Results of methods -/

namespace Method

/-- A method that is computed yields values of a certain kind only. -/
def Yields (kind : Value → Prop) (result : Except Fault Value) : Prop :=
  ∀ value, result = .ok value → kind value

section
variable {kind : Value → Prop}

private theorem yields_ok {value : Value} (here : kind value) : Yields kind (.ok value) := by
  intro other same
  obtain rfl := Except.ok.inj same
  exact here

private theorem yields_error (fault : Fault) : Yields kind (.error fault) := by
  intro value same
  cases same

private theorem yields_bind {first : Except Fault α} {next : α → Except Fault Value}
    (after : ∀ value, Yields kind (next value)) : Yields kind (first >>= next) := by
  cases first with
  | error cause => exact yields_error cause
  | ok value => exact after value

private theorem yields_nullary (method : String) (args : List Value) {result : Value}
    (here : kind result) : Yields kind (nullary method args result) := by
  unfold nullary
  split
  · exact yields_ok here
  · exact yields_error _

private theorem yields_unary (method : String) (args : List Value) {result : Value → Except Fault Value}
    (inside : ∀ arg, Yields kind (result arg)) : Yields kind (unary method args result) := by
  unfold unary
  split
  · exact inside _
  · exact yields_error _

end

private theorem yields_substring (heap : Heap) (text : String) (args : List Value) :
    Yields Value.IsScalar (substring heap text args) :=
  yields_bind fun _ => yields_bind fun _ => yields_ok trivial

private theorem yields_ofText (heap : Heap) (text method : String) (args : List Value) :
    Yields Value.IsScalar (ofText heap text method args) := by
  unfold ofText
  split
  case h_6 => exact yields_substring heap text args
  case h_7 => exact yields_error _
  all_goals exact yields_nullary _ args trivial

private theorem yields_ofList (heap : Heap) (id : ListId) (method : String) (args : List Value) :
    Yields (fun value => value.IsScalar ∨ value ∈ heap.items id) (ofList heap id method args) := by
  unfold ofList
  dsimp only
  split
  · exact yields_nullary _ args (.inl trivial)
  · exact yields_nullary _ args (.inl trivial)
  · refine yields_unary _ args fun arg => yields_bind fun i => ?_
    split
    · next item found =>
      obtain ⟨position, _, there⟩ := Option.bind_eq_some_iff.mp found
      exact yields_ok (.inr (List.mem_of_getElem? there))
    · exact yields_error _
  · exact yields_unary _ args fun arg => yields_ok (.inl trivial)
  · exact yields_error _

private theorem yields_ofObject (heap : Heap) (id : ObjectId) (method : String) (args : List Value) :
    Yields Value.IsScalar (ofObject heap id method args) := by
  unfold ofObject
  split
  · exact yields_nullary _ args trivial
  · refine yields_unary _ args fun arg => ?_
    split
    · exact yields_ok trivial
    · exact yields_error _
  · exact yields_error _

/-- A method that is computed yields a scalar or an item of the list that it is called on. -/
theorem yields_builtIn (heap : Heap) (target : Value) (method : String) (args : List Value) :
    Yields (fun value => value.IsScalar ∨ ∃ id, target = .list id ∧ value ∈ heap.items id)
      (builtIn heap target method args) := by
  have scalar {result : Except Fault Value} (yields : Yields Value.IsScalar result) :
      Yields (fun value => value.IsScalar ∨ ∃ id, target = .list id ∧ value ∈ heap.items id) result :=
    fun value same => .inl (yields value same)
  unfold builtIn
  split
  · exact yields_error _
  · exact scalar (yields_ofText heap _ method args)
  · exact fun value same => (yields_ofList heap _ method args value same).imp_right fun member =>
      ⟨_, rfl, member⟩
  · exact scalar (yields_ofObject heap _ method args)
  · exact yields_error _

end Method

/-! ## Properties, variables, indices and methods -/

namespace Realm

variable [Host W] {realm : Realm}

theorem keeps_property (reads : realm.Reading) (name : String) (span : Span) :
    realm.Keeps realm.values (Property.evaluate name span : Eval W TypedValue) := by
  intro state holds
  refine keepsAt_get ?_
  have inside := holds.current
  cases context : state.current.value with
  | null => exact keepsAt_fault holds _ span
  | object id =>
    refine keepsAt_orFault holds (fun value found => ?_) _ span
    obtain ⟨field, there, rfl⟩ := Option.map_eq_some_iff.mp found
    exact reads.field holds.heap inside context there
  | host id => exact absurd context (reads.hostless inside id)
  | _ =>
    refine keepsAt_bind (keepsAt_orFault holds (fun _ _ => trivial) _ span) fun length reached _ holds => ?_
    exact keepsAt_pure holds (reads.scalar (Value.isScalar_ofLength length) _)

theorem keeps_isAssignable_property (reads : realm.Reading) (name : String) :
    realm.Keeps (fun _ => True) (Property.isAssignable name : Eval W Bool) := by
  intro state holds
  refine keepsAt_get ?_
  cases context : state.current.value with
  | host id => exact absurd context (reads.hostless holds.current id)
  | _ => exact keepsAt_pure holds trivial

theorem keeps_assign_property (writes : realm.Writing) (name : String) (span : Span) {value : TypedValue}
    (stored : realm.values value) :
    realm.Keeps (fun _ => True) (Property.assign name span value : Eval W Unit) := by
  intro state holds
  refine keepsAt_get ?_
  have inside := holds.current
  cases context : state.current.value with
  | null => exact keepsAt_fault holds _ span
  | object id =>
    refine keepsAt_change holds (fun heap changed => ?_) _ span
    exact writes.write holds.heap inside context stored (Heap.putsField_of_write? changed)
  | host id => exact absurd context (writes.hostless inside id)
  | _ =>
    dsimp only
    split
    · exact keepsAt_fault holds _ span
    · exact keepsAt_fault holds _ span

omit [Host W] in
theorem keeps_variable (name : String) (span : Span) :
    realm.Keeps realm.values (Variable.evaluate name span : Eval W TypedValue) := by
  intro state holds
  refine keepsAt_get ?_
  split
  · exact keepsAt_pure holds holds.current
  · split
    · exact keepsAt_pure holds holds.root
    · exact keepsAt_orFault holds (fun value bound => holds.binding bound) _ span

omit [Host W] in
theorem keeps_assign_variable (name : String) (span : Span) {value : TypedValue}
    (stored : realm.values value) :
    realm.Keeps (fun _ => True) (Variable.assign name span value : Eval W Unit) := by
  intro state holds
  unfold Variable.assign
  split
  · exact ⟨holds.bind name stored, fun _ => trivial⟩
  · exact keepsAt_fault holds _ span

omit [Host W] in
theorem keeps_key {index : Eval W TypedValue} (keeps : realm.Keeps realm.values index) :
    realm.Keeps (fun _ => True) (Indexer.key index) := by
  intro state holds
  refine keepsAt_get (keepsAt_bind (keeps_inScope holds.root keeps state holds) ?_)
  exact fun typed reached _ holds => keepsAt_pure holds trivial

theorem keeps_indexer (reads : realm.Reading) {index : Eval W TypedValue}
    (keeps : realm.Keeps realm.values index) (span : Span) :
    realm.Keeps realm.values (Indexer.evaluate index span) := by
  intro state holds
  have inside := holds.current
  refine keepsAt_get (keepsAt_bind (keeps_key keeps state holds) fun key reached _ holds => keepsAt_get ?_)
  split
  case h_2 id i context =>
    refine keepsAt_orFault holds (fun value found => ?_) _ span
    obtain ⟨item, selected, rfl⟩ := Option.map_eq_some_iff.mp found
    obtain ⟨position, _, there⟩ := Option.bind_eq_some_iff.mp selected
    exact reads.item holds.heap inside context (List.mem_of_getElem? there)
  case h_3 =>
    refine keepsAt_orFault holds (fun value found => ?_) _ span
    obtain ⟨c, _, rfl⟩ := Option.map_eq_some_iff.mp found
    exact reads.scalar (Value.isScalar_text _) _
  case h_6 id name context =>
    refine keepsAt_orFault holds (fun value found => ?_) _ span
    obtain ⟨field, there, rfl⟩ := Option.map_eq_some_iff.mp found
    exact reads.field holds.heap inside context there
  case h_7 id name context => exact absurd context (reads.hostless inside id)
  all_goals exact keepsAt_fault holds _ span

theorem keeps_isAssignable_indexer (reads : realm.Reading) {index : Eval W TypedValue}
    (keeps : realm.Keeps realm.values index) :
    realm.Keeps (fun _ => True) (Indexer.isAssignable index) := by
  intro state holds
  have inside := holds.current
  refine keepsAt_get (keepsAt_bind (keeps_key keeps state holds) fun key reached _ holds => keepsAt_get ?_)
  split
  case h_3 id name context => exact absurd context (reads.hostless inside id)
  all_goals exact keepsAt_pure holds trivial

theorem keeps_assign_indexer (writes : realm.Writing) {index : Eval W TypedValue}
    (keeps : realm.Keeps realm.values index) (span : Span) {value : TypedValue} (stored : realm.values value) :
    realm.Keeps (fun _ => True) (Indexer.assign index span value) := by
  intro state holds
  have inside := holds.current
  refine keepsAt_get (keepsAt_bind (keeps_key keeps state holds) fun key reached _ holds => keepsAt_get ?_)
  split
  case h_2 id i context =>
    refine keepsAt_change holds (fun heap found => ?_) _ span
    obtain ⟨position, _, changed⟩ := Option.bind_eq_some_iff.mp found
    exact writes.replace holds.heap inside context stored (Heap.putsItem_of_replace? changed)
  case h_4 id name context =>
    refine keepsAt_change holds (fun heap changed => ?_) _ span
    exact writes.write holds.heap inside context stored (Heap.putsField_of_write? changed)
  case h_5 id name context => exact absurd context (writes.hostless inside id)
  all_goals exact keepsAt_fault holds _ span

omit [Host W] in
theorem keeps_values {args : List (Eval W TypedValue)} (keeps : ∀ arg ∈ args, realm.Keeps realm.values arg) :
    realm.Keeps (fun _ => True) (Method.values args) := by
  induction args with
  | nil => exact fun state holds => keepsAt_pure holds trivial
  | cons first rest ih =>
    obtain ⟨ofFirst, ofRest⟩ := List.forall_mem_cons.mp keeps
    intro state holds
    refine keepsAt_bind (ofFirst state holds) fun typed reached _ holds => ?_
    refine keepsAt_bind (ih ofRest reached holds) fun others reached _ holds => ?_
    exact keepsAt_pure holds trivial

omit [Host W] in
theorem keeps_arguments {args : List (Eval W TypedValue)}
    (keeps : ∀ arg ∈ args, realm.Keeps realm.values arg) :
    realm.Keeps (fun _ => True) (Method.arguments args) := by
  intro state holds
  unfold Method.arguments
  split
  · exact keepsAt_pure holds trivial
  · exact keepsAt_get (keeps_inScope holds.root (keeps_values keeps) state holds)

theorem keeps_method (reads : realm.Reading) (name : String) {args : List (Eval W TypedValue)}
    (keeps : ∀ arg ∈ args, realm.Keeps realm.values arg) (span : Span) :
    realm.Keeps realm.values (Method.evaluate name args span) := by
  intro state holds
  have inside := holds.current
  refine keepsAt_get (keepsAt_bind (keeps_arguments keeps state holds) fun args reached _ holds =>
    keepsAt_get ?_)
  split
  · next id context => exact absurd context (reads.hostless inside id)
  · dsimp only
    split
    · next result found =>
      refine keepsAt_pure holds ?_
      obtain scalar | ⟨id, context, member⟩ := Method.yields_builtIn _ _ _ _ result found
      · exact reads.scalar scalar _
      · exact reads.item holds.heap inside context member
    · exact keepsAt_fault holds _ span

/-! ## Chains and nodes -/

omit [Host W] in
theorem keeps_follow (correct : Bool) {segments : List (Node W)}
    (reads : ∀ segment ∈ segments, realm.ReadBy segment) {value : TypedValue}
    (inside : realm.values value) : realm.Keeps realm.values (Chain.follow correct segments value) := by
  induction segments generalizing value with
  | nil => exact fun state holds => keepsAt_pure holds inside
  | cons segment rest ih =>
    obtain ⟨ofFirst, ofRest⟩ := List.forall_mem_cons.mp reads
    intro state holds
    refine keepsAt_bind (keeps_inScope inside (keeps_positioned ofFirst.evaluate) state holds) ?_
    exact fun next reached inside holds => ih ofRest inside reached holds

omit [Host W] in
theorem keeps_read (correct : Bool) {head : Node W} {middle : List (Node W)} (first : realm.ReadBy head)
    (reads : ∀ segment ∈ middle, realm.ReadBy segment) :
    realm.Keeps realm.values (Chain.read correct head middle) := fun state holds =>
  keepsAt_bind (keeps_positioned first.evaluate state holds) fun _ reached inside holds =>
    keeps_follow correct reads inside reached holds

omit [Host W] in
/-- An operation on the last segment keeps to a realm if it does on every segment. -/
theorem keeps_atLast {head : Node W} {tail : List (Node W)} (first : realm.ReadBy head)
    (reads : ∀ segment ∈ tail, realm.ReadBy segment) {kind : α → Prop} {operation : Node W → Eval W α}
    (operated : ∀ segment ∈ head :: tail, realm.Keeps kind (operation segment)) :
    realm.Keeps kind (Chain.atLast head tail operation) := by
  obtain ⟨alone, last⟩ := List.forall_mem_cons.mp operated
  unfold Chain.atLast
  split
  · exact alone
  · next segment found =>
    intro state holds
    refine keepsAt_get (keepsAt_bind (keeps_read _ first ?_ state holds) fun target reached inside holds => ?_)
    · exact fun other earlier => reads other ((List.dropLast_sublist tail).subset earlier)
    · exact keeps_inScope inside (keeps_positioned (last segment (List.mem_of_getLast? found))) reached holds

omit [Host W] in
theorem readBy_chain {head : Node W} {tail : List (Node W)} {span : Span} (first : realm.ReadBy head)
    (reads : ∀ segment ∈ tail, realm.ReadBy segment) : realm.ReadBy (Chain.node head tail span) := by
  refine ⟨?_, ?_⟩
  · change realm.Keeps realm.values (Chain.evaluate head tail)
    unfold Chain.evaluate
    split
    · exact first.evaluate
    · exact keeps_read true first reads
  · apply keeps_atLast first reads
    exact List.forall_mem_cons.mpr
      ⟨first.isAssignable, fun segment member => (reads segment member).isAssignable⟩

omit [Host W] in
theorem readBy_nested {node : Node W} (reads : realm.ReadBy node) : realm.ReadBy node.nested :=
  ⟨keeps_inNode reads.evaluate, keeps_inNode reads.isAssignable⟩

omit [Host W] in
theorem readBy_valueOnly (name : String) (span : Span) {evaluate : Eval W TypedValue}
    (keeps : realm.Keeps realm.values evaluate) : realm.ReadBy (Node.valueOnly name span evaluate) :=
  ⟨keeps, fun _ holds => keepsAt_pure holds trivial⟩

end Realm

/-- Evaluating an expression and asking it keep to a realm whose steps of reading do, if the steps of writing
do where an assignment stands. Storing a value of the realm keeps to it if the steps of writing do. -/
private theorem Expr.stays [Host W] {realm : Realm} (reads : realm.Reading) (e : Expr)
    (allowed : e.assigns = true → realm.Writing) :
    realm.ReadBy (e.node : Node W) ∧ (realm.Writing → ∀ value, realm.values value →
      realm.Keeps (fun _ => True) ((e.node : Node W).assign value)) := by
  induction e with
  | literal value span =>
    refine ⟨Realm.readBy_nested (Realm.readBy_valueOnly _ span fun state holds => Realm.keepsAt_pure holds ?_),
      fun _ _ _ => Realm.keeps_inNode fun _ holds => Realm.keepsAt_fault holds _ span⟩
    rw [← value.typed_eq state.heap]
    exact reads.scalar value.isScalar_typed state.heap
  | property name dotted span =>
    exact ⟨Realm.readBy_nested ⟨Realm.keeps_property reads name span,
      Realm.keeps_isAssignable_property reads name⟩,
      fun writes _ inside => Realm.keeps_inNode (Realm.keeps_assign_property writes name span inside)⟩
  | reference name span =>
    exact ⟨Realm.readBy_nested ⟨Realm.keeps_variable name span,
      fun _ holds => Realm.keepsAt_pure holds trivial⟩,
      fun _ _ inside => Realm.keeps_inNode (Realm.keeps_assign_variable name span inside)⟩
  | indexer index span ih =>
    have key := (ih allowed).1.evaluate
    exact ⟨Realm.readBy_nested ⟨Realm.keeps_indexer reads key span,
      Realm.keeps_isAssignable_indexer reads key⟩,
      fun writes _ inside => Realm.keeps_inNode (Realm.keeps_assign_indexer writes key span inside)⟩
  | method name args dotted span ih =>
    refine ⟨Realm.readBy_nested (Realm.readBy_valueOnly _ span
        (Realm.keeps_method reads name (fun arg member => ?_) span)),
      fun _ _ _ => Realm.keeps_inNode fun _ holds => Realm.keepsAt_fault holds _ span⟩
    simp only [nodes_eq_map, List.mem_map] at member
    obtain ⟨_, ⟨e, member, rfl⟩, rfl⟩ := member
    exact (ih e member fun inside => allowed (assigns_of_arg member inside)).1.evaluate
  | assign target value span ofTarget ofValue =>
    have writes := allowed rfl
    refine ⟨Realm.readBy_nested (Realm.readBy_valueOnly _ span fun state holds => ?_),
      fun _ _ _ => Realm.keeps_inNode fun _ holds => Realm.keepsAt_fault holds _ span⟩
    refine Realm.keepsAt_bind ((ofValue fun _ => writes).1.evaluate state holds) ?_
    intro result reached inside holds
    refine Realm.keepsAt_bind ((ofTarget fun _ => writes).2 writes result inside reached holds) ?_
    exact fun _ reached _ holds => Realm.keepsAt_pure holds inside
  | chain head tail span ofHead ofTail =>
    have first := ofHead fun inside => allowed (assigns_of_segment List.mem_cons_self inside)
    have others (e : Expr) (member : e ∈ tail) :=
      ofTail e member fun inside => allowed (assigns_of_segment (List.mem_cons_of_mem _ member) inside)
    have segments : ∀ segment ∈ (nodes tail : List (Node W)), realm.ReadBy segment := by
      rw [nodes_eq_map, List.forall_mem_map]
      exact fun e member => (others e member).1
    refine ⟨Realm.readBy_nested (Realm.readBy_chain first.1 segments), fun writes value inside => ?_⟩
    apply Realm.keeps_inNode
    change realm.Keeps _ (Chain.atLast head.node (nodes tail) (·.assign value))
    apply Realm.keeps_atLast first.1 segments
    rw [nodes_eq_map, ← List.map_cons, List.forall_mem_map]
    exact List.forall_mem_cons.mpr
      ⟨first.2 writes value inside, fun e member => (others e member).2 writes value inside⟩

namespace Realm

variable [Host W] {realm : Realm}

/-- Every expression leads from values of a realm to values of the realm. -/
theorem keptBy_node (writes : realm.Writing) (e : Expr) : realm.KeptBy (e.node : Node W) := by
  have stays := e.stays (W := W) writes.toReading fun _ => writes
  exact ⟨stays.1, fun inside => stays.2 writes _ inside⟩

/-- An expression without assignments leads to values of a realm whose steps of reading do. -/
theorem readBy_node (reads : realm.Reading) (e : Expr) (free : e.assigns = false) :
    realm.ReadBy (e.node : Node W) :=
  (e.stays reads fun assigns => absurd assigns (by simp [free])).1

end Realm

/-! ## Sessions -/

/-- The value that an operation is given to store. -/
def Request.given? : Request → Option TypedValue
  | store _ value => some value
  | _ => none

/-- The value that an operation on a state returns. -/
def Request.returned? [Host W] (state : State W) : Request → Option TypedValue
  | evaluate e => (e.evaluate.outcome state).1.toOption
  | _ => none

theorem Request.returned?_evaluate [Host W] {state : State W} {e : Expr} {value : TypedValue} :
    (evaluate e).returned? state = some value ↔ (e.evaluate.outcome state).1 = .ok value := by
  rw [returned?]
  cases (e.evaluate.outcome state).1 <;> simp [Except.toOption]

/-- The values that operations one after the other on one state return. -/
def State.returned [Host W] : State W → List Request → List TypedValue
  | _, [] => []
  | state, request :: session => (request.returned? state).toList ++ (request.run state).returned session

namespace Realm

variable [Host W] {realm : Realm} {state : State W}

/-- An operation that is given a value of a realm to store leads to values of the realm. -/
theorem request (writes : realm.Writing) (holds : realm.Holds state) {request : Request}
    (given : ∀ value, request.given? = some value → realm.values value) :
    realm.Holds (request.run state) ∧
      ∀ value, request.returned? state = some value → realm.values value := by
  cases request with
  | evaluate e =>
    obtain ⟨holds', result⟩ := (keptBy_node writes e).evaluate state holds
    exact ⟨holds', fun value returned => result (Request.returned?_evaluate.mp returned)⟩
  | store e value =>
    have kept := (keptBy_node writes e).assign (given value rfl) state holds
    exact ⟨kept.holds, fun _ returned => nomatch returned⟩
  | ask e =>
    have kept := (keptBy_node writes e).isAssignable state holds
    exact ⟨kept.holds, fun _ returned => nomatch returned⟩

/-- Any number of operations that are given values of a realm to store lead to values of the realm. -/
theorem session (writes : realm.Writing) (holds : realm.Holds state) {session : List Request}
    (given : ∀ request ∈ session, ∀ value, request.given? = some value → realm.values value) :
    realm.Holds (state.afterSession session) ∧ ∀ value ∈ state.returned session, realm.values value := by
  induction session generalizing state with
  | nil => exact ⟨holds, fun _ member => absurd member List.not_mem_nil⟩
  | cons request session ih =>
    obtain ⟨ofFirst, ofRest⟩ := List.forall_mem_cons.mp given
    obtain ⟨next, returned⟩ := Realm.request writes holds ofFirst
    obtain ⟨final, later⟩ := ih next ofRest
    refine ⟨final, List.forall_mem_append.mpr ⟨fun value member => ?_, later⟩⟩
    exact returned value (Option.mem_toList.mp member)

end Realm

end DotChain
