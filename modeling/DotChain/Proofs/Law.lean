import DotChain.Expr.Assignment
import DotChain.Expr.Shape
import DotChain.Meaning
import DotChain.Outcome

/-!
# Laws of evaluation

A law says which later states a computation may leave, how it may fail and where it may be at fault.
A law that the single steps keep is kept by every operation on every expression whose nodes stand where
the law lets them be at fault, however the operation ends. Main statements: `Expr.keeps`, for all three
operations; `Expr.reads`, for a law that only the steps of reading keep and an expression without
assignments; and the lemmas that they are assembled from, one for each way of building a node.
-/

namespace DotChain

variable {W α β : Type}

/-! ## What is asked of an application -/

/-- A computation by which the application is asked without being told to write. -/
inductive HostAction.Query [Host W] : {α : Type} → HostAction W α → Prop
  | read (id : HostId) (name : String) : Query (Host.read id name)
  | canWrite (id : HostId) (name : String) : Query (Host.canWrite id name)
  | invoke (id : HostId) (name : String) (args : List Value) : Query (Host.invoke id name args)

/-- A computation by which the application is asked or told to write. -/
inductive HostAction.Call [Host W] : {α : Type} → HostAction W α → Prop
  | query {α : Type} {action : HostAction W α} (asked : action.Query) : Call action
  | write (id : HostId) (name : String) (value : Value) : Call (Host.write id name value)

/-- What a computation of the application makes of a store. -/
def HostAction.outcome (action : HostAction W α) (store : Store W) : Except HostError α × Store W :=
  (ExceptT.run action).run store

/-- The application goes on after a success; a failure ends what it does. -/
theorem HostAction.outcome_bind (first : HostAction W α) (next : α → HostAction W β)
    (store : Store W) :
    HostAction.outcome (first >>= next) store =
      match first.outcome store with
      | (.ok value, reached) => (next value).outcome reached
      | (.error error, reached) => (.error error, reached) := by
  simp only [outcome, ExceptT.run, bind, ExceptT.bind, ExceptT.mk, StateT.bind, StateT.run,
    ExceptT.bindCont]
  rcases first store with ⟨result, reached⟩
  cases result <;> rfl

/-! ## Laws -/

/-- A rule about computations: to which states a state may lead, which failures a state may be left by,
and at which places there may be a fault. -/
structure Law (W : Type) where
  leads : State W → State W → Prop
  fails : Failure → State W → Prop
  places : Span → Prop := fun _ => True

namespace Law

/-- What the steps of reading ask of a law. -/
structure Reading [Host W] (law : Law W) : Prop where
  refl (state : State W) : law.leads state state
  trans {before middle after : State W} :
    law.leads before middle → law.leads middle after → law.leads before after
  /-- A scope may be entered and is left. -/
  scope {state final : State W} (value : TypedValue) :
    law.leads (state.push value) final → law.leads state (final.cut state.contexts.length)
  /-- A node may be entered and is left. -/
  node {state final : State W} : law.leads state.enter final → law.leads state final.leave
  query {α : Type} {action : HostAction W α} (asked : action.Query) (state : State W) :
    law.leads state { state with store := (action.outcome state.store).2 }
  fault {span : Span} (placed : law.places span) (fault : Fault) (state : State W) :
    law.fails (.fault fault span) state
  moved {failure : Failure} {state : State W} {span : Span} (placed : law.places span) :
    law.fails failure state → law.fails (failure.movedTo span) state
  failed_scope {failure : Failure} {state : State W} (depth : Nat) :
    law.fails failure state → law.fails failure (state.cut depth)
  failed_node {failure : Failure} {state : State W} :
    law.fails failure state → law.fails failure state.leave
  failed_call {α : Type} {action : HostAction W α} (called : action.Call) {error : HostError}
    {state : State W} (failed : (action.outcome state.store).1 = .error error) :
    law.fails (.host error) { state with store := (action.outcome state.store).2 }

/-- What the steps of reading and writing ask of a law. -/
structure Writing [Host W] (law : Law W) : Prop extends law.Reading where
  bind (state : State W) (name : String) (value : TypedValue) :
    law.leads state (state.bind name value)
  replace {state : State W} {heap : Heap} {id : ListId} {position : Nat} {value : Value} :
    state.heap.replace? id position value = some heap → law.leads state (state.withHeap heap)
  write {state : State W} {heap : Heap} {id : ObjectId} {name : String} {value : Value} :
    state.heap.write? id name value = some heap → law.leads state (state.withHeap heap)
  host_write (id : HostId) (name : String) (value : Value) (state : State W) :
    law.leads state { state with store := ((Host.write id name value).outcome state.store).2 }

/-- A computation keeps to a law when it starts in a given state. -/
structure KeptAt (law : Law W) (action : Eval W α) (state : State W) : Prop where
  leads : law.leads state (action.outcome state).2
  fails {failure : Failure} :
    (action.outcome state).1 = .error failure → law.fails failure (action.outcome state).2

/-- A computation keeps to a law wherever it starts. -/
def Kept (law : Law W) (action : Eval W α) : Prop := ∀ state, law.KeptAt action state

/-- Evaluating a node and asking it keep to a law, and the node stands where there may be a fault. -/
structure ReadBy (law : Law W) (node : Node W) : Prop where
  placed : law.places node.span
  evaluate : law.Kept node.evaluate
  isAssignable : law.Kept node.isAssignable

/-- All three operations of a node keep to a law, and the node stands where there may be a fault. -/
structure KeptBy (law : Law W) (node : Node W) : Prop extends law.ReadBy node where
  assign (value : TypedValue) : law.Kept (node.assign value)

/-! ## Computations -/

section
variable {law : Law W}

theorem keptAt_set {state final : State W} (leads : law.leads state final) :
    law.KeptAt (set final : Eval W PUnit) state :=
  ⟨leads, fun failed => by simp at failed⟩

theorem kept_modify {change : State W → State W} (leads : ∀ state, law.leads state (change state)) :
    law.Kept (modify change : Eval W PUnit) := fun state =>
  ⟨leads state, fun failed => by simp at failed⟩

variable [Host W]

theorem kept_pure (reads : law.Reading) (value : α) : law.Kept (pure value) := fun state =>
  ⟨reads.refl state, fun failed => by simp at failed⟩

theorem kept_fault (reads : law.Reading) (fault : Fault) {span : Span} (placed : law.places span) :
    law.Kept (Eval.fault fault span : Eval W α) := by
  intro state
  refine ⟨reads.refl state, fun {failure} failed => ?_⟩
  rw [Eval.outcome_fault] at failed ⊢
  obtain rfl := Except.error.inj failed
  exact reads.fault placed fault state

theorem kept_orFault (reads : law.Reading) (found : Option α) (fault : Fault) {span : Span}
    (placed : law.places span) : law.Kept (Eval.orFault found fault span) := by
  cases found with
  | none => exact kept_fault reads fault placed
  | some value => exact kept_pure reads value

/-- What follows only has to keep to the law in the state that the first computation leaves. -/
theorem keptAt_bind (reads : law.Reading) {first : Eval W α} {next : α → Eval W β} {state : State W}
    (before : law.KeptAt first state)
    (after : ∀ value reached, first.outcome state = (.ok value, reached) →
      law.KeptAt (next value) reached) : law.KeptAt (first >>= next) state := by
  obtain ⟨leads, fails⟩ := before
  rcases run : first.outcome state with ⟨_ | value, reached⟩
  · next failure =>
    rw [run] at leads fails
    have whole : (first >>= next).outcome state = (.error failure, reached) := by
      rw [Eval.outcome_bind, run]
    refine ⟨by rw [whole]; exact leads, fun {other} failed => ?_⟩
    rw [whole] at failed ⊢
    obtain rfl := Except.error.inj failed
    exact fails rfl
  · obtain ⟨leads', fails'⟩ := after value reached run
    have whole : (first >>= next).outcome state = (next value).outcome reached := by
      rw [Eval.outcome_bind, run]
    rw [run] at leads
    refine ⟨by rw [whole]; exact reads.trans leads leads', fun failed => ?_⟩
    rw [whole] at failed ⊢
    exact fails' failed

theorem kept_bind (reads : law.Reading) {first : Eval W α} {next : α → Eval W β}
    (before : law.Kept first) (after : ∀ value, law.Kept (next value)) : law.Kept (first >>= next) :=
  fun state => keptAt_bind reads (before state) fun value reached _ => after value reached

theorem keptAt_get (reads : law.Reading) {next : State W → Eval W β} {state : State W}
    (after : law.KeptAt (next state) state) : law.KeptAt (get >>= next) state := by
  refine keptAt_bind reads ⟨reads.refl state, fun failed => by simp at failed⟩ fun value reached run => ?_
  obtain ⟨same, rfl⟩ := Prod.mk.inj run
  obtain rfl := Except.ok.inj same
  exact after

theorem kept_get (reads : law.Reading) {next : State W → Eval W β}
    (after : ∀ state, law.KeptAt (next state) state) : law.Kept (get >>= next) :=
  fun state => keptAt_get reads (after state)

/-- Going on with the heap that a change makes, with a fault if the change is refused. -/
theorem keptAt_change (reads : law.Reading) {changed : Option Heap} {state : State W}
    (leads : ∀ heap, changed = some heap → law.leads state (state.withHeap heap))
    (fault : Fault) {span : Span} (placed : law.places span) :
    law.KeptAt (do set (state.withHeap (← Eval.orFault changed fault span)) : Eval W Unit) state := by
  cases changed with
  | none => exact kept_fault reads fault placed state
  | some heap => exact keptAt_set (leads heap rfl)

theorem kept_inScope (reads : law.Reading) (value : TypedValue) {body : Eval W α}
    (inside : law.Kept body) : law.Kept (Eval.inScope value body) := by
  intro state
  obtain ⟨leads, fails⟩ := inside (state.push value)
  refine ⟨?_, fun failed => ?_⟩
  · rw [Eval.outcome_inScope]
    exact reads.scope value leads
  · rw [Eval.outcome_inScope] at failed ⊢
    exact reads.failed_scope _ (fails failed)

theorem kept_inNode (reads : law.Reading) {span : Span} (placed : law.places span)
    {body : Eval W α} (inside : law.Kept body) : law.Kept (Eval.inNode span body) := by
  intro state
  obtain ⟨leads, fails⟩ := inside state.enter
  cases deep : state.exhausted? with
  | some limit =>
    have run : (Eval.inNode span body).outcome state =
        (.error (.fault (.recursionLimit limit) span), state) := by
      rw [Eval.outcome_inNode, deep]
    refine ⟨by rw [run]; exact reads.refl state, fun {failure} failed => ?_⟩
    rw [run] at failed ⊢
    obtain rfl := Except.error.inj failed
    exact reads.fault placed _ state
  | none =>
    have run : (Eval.inNode span body).outcome state =
        ((body.outcome state.enter).1, (body.outcome state.enter).2.leave) := by
      rw [Eval.outcome_inNode, deep]
    refine ⟨by rw [run]; exact reads.node leads, fun failed => ?_⟩
    rw [run] at failed ⊢
    exact reads.failed_node (fails failed)

theorem kept_positioned (reads : law.Reading) (correct : Bool) {span : Span}
    (placed : law.places span) {body : Eval W α} (inside : law.Kept body) :
    law.Kept (Eval.positioned correct span body) := by
  intro state
  obtain ⟨leads, fails⟩ := inside state
  refine ⟨by rw [Eval.outcome_positioned]; exact leads, fun failed => ?_⟩
  rw [Eval.outcome_positioned] at failed ⊢
  cases run : (body.outcome state).1 with
  | ok value =>
    rw [run] at failed
    cases failed
  | error cause =>
    rw [run] at failed
    obtain rfl := Except.error.inj failed
    cases correct with
    | false => exact fails run
    | true => exact reads.moved placed (fails run)

private theorem kept_host (reads : law.Reading) {action : HostAction W α} (called : action.Call)
    (leads : ∀ state : State W, law.leads state { state with store := (action.outcome state.store).2 }) :
    law.Kept (Eval.host action) := by
  intro state
  refine ⟨leads state, fun {failure} failed => ?_⟩
  rw [Eval.outcome_host] at failed ⊢
  cases run : ((ExceptT.run action).run state.store).1 with
  | ok value =>
    rw [run] at failed
    cases failed
  | error error =>
    rw [run] at failed
    obtain rfl := Except.error.inj failed
    exact reads.failed_call called run

theorem kept_query (reads : law.Reading) {action : HostAction W α} (asked : action.Query) :
    law.Kept (Eval.host action) :=
  kept_host reads (.query asked) (reads.query asked)

theorem kept_write (writes : law.Writing) (id : HostId) (name : String) (value : Value) :
    law.Kept (Eval.host (Host.write id name value)) :=
  kept_host writes.toReading (.write id name value) (writes.host_write id name value)

/-! ## Properties, variables, indices and methods -/

theorem kept_property (reads : law.Reading) (name : String) {span : Span}
    (placed : law.places span) : law.Kept (Property.evaluate name span : Eval W TypedValue) := by
  refine kept_get reads fun state => ?_
  cases context : state.current.value with
  | null => exact kept_fault reads _ placed state
  | object id =>
    exact kept_orFault reads _ _ placed state
  | host id =>
    refine keptAt_bind reads (kept_query reads (.read id name) state) fun found reached _ => ?_
    refine keptAt_bind reads (kept_orFault reads found _ placed reached) fun value reached _ => ?_
    exact keptAt_get reads (kept_pure reads _ reached)
  | _ =>
    exact keptAt_bind reads (kept_orFault reads _ _ placed state) fun length reached _ =>
      kept_pure reads _ reached

theorem kept_isAssignable_property (reads : law.Reading) (name : String) :
    law.Kept (Property.isAssignable name : Eval W Bool) := by
  refine kept_get reads fun state => ?_
  cases context : state.current.value with
  | object id => exact kept_pure reads _ state
  | host id => exact kept_query reads (.canWrite id name) state
  | _ => exact kept_pure reads _ state

/-- Telling the application to write, with a fault if it refuses. -/
theorem kept_write_unless (writes : law.Writing) (id : HostId) (name : String) (value : Value)
    (fault : Fault) {span : Span} (placed : law.places span) :
    law.Kept (do unless ← Eval.host (Host.write id name value) do Eval.fault fault span :
      Eval W Unit) := by
  refine kept_bind writes.toReading (kept_write writes id name value) fun written => ?_
  cases written with
  | true => exact kept_pure writes.toReading _
  | false => exact kept_fault writes.toReading fault placed

theorem kept_assign_property (writes : law.Writing) (name : String) {span : Span}
    (placed : law.places span) (value : TypedValue) :
    law.Kept (Property.assign name span value : Eval W Unit) := by
  have reads := writes.toReading
  refine kept_get reads fun state => ?_
  cases context : state.current.value with
  | null => exact kept_fault reads _ placed state
  | object id =>
    exact keptAt_change reads (fun heap changed => writes.write changed) _ placed
  | host id =>
    exact kept_write_unless writes id name value.value _ placed state
  | _ =>
    dsimp only
    split
    · exact kept_fault reads _ placed state
    · exact kept_fault reads _ placed state

theorem kept_variable (reads : law.Reading) (name : String) {span : Span}
    (placed : law.places span) : law.Kept (Variable.evaluate name span : Eval W TypedValue) := by
  refine kept_get reads fun state => ?_
  split
  · exact kept_pure reads _ state
  · split
    · exact kept_pure reads _ state
    · exact kept_orFault reads _ _ placed state

theorem kept_assign_variable (writes : law.Writing) (name : String) {span : Span}
    (placed : law.places span) (value : TypedValue) :
    law.Kept (Variable.assign name span value : Eval W Unit) := by
  unfold Variable.assign
  split
  · exact kept_modify fun state => writes.bind state name value
  · exact kept_fault writes.toReading _ placed

theorem kept_key (reads : law.Reading) {index : Eval W TypedValue} (inside : law.Kept index) :
    law.Kept (Indexer.key index) :=
  kept_get reads fun state =>
    kept_bind reads (kept_inScope reads state.root inside) (fun _ => kept_pure reads _) state

theorem kept_indexer (reads : law.Reading) {index : Eval W TypedValue} (inside : law.Kept index)
    {span : Span} (placed : law.places span) : law.Kept (Indexer.evaluate index span) := by
  refine kept_get reads fun state => keptAt_bind reads (kept_key reads inside state) ?_
  intro key reached _
  refine keptAt_get reads ?_
  split
  case h_7 id name _ _ =>
    refine keptAt_bind reads (kept_query reads (.read id name) reached) fun found reached _ => ?_
    refine keptAt_bind reads (kept_orFault reads found _ placed reached) fun value reached _ => ?_
    exact keptAt_get reads (kept_pure reads _ reached)
  case h_2 | h_3 | h_6 => exact kept_orFault reads _ _ placed reached
  all_goals exact kept_fault reads _ placed reached

theorem kept_assign_indexer (writes : law.Writing) {index : Eval W TypedValue}
    (inside : law.Kept index) {span : Span} (placed : law.places span) (value : TypedValue) :
    law.Kept (Indexer.assign index span value) := by
  have reads := writes.toReading
  refine kept_get reads fun state => keptAt_bind reads (kept_key reads inside state) ?_
  intro key reached _
  refine keptAt_get reads ?_
  split
  case h_2 id i _ _ =>
    refine keptAt_change reads (fun heap found => ?_) _ placed
    obtain ⟨position, _, changed⟩ := Option.bind_eq_some_iff.mp found
    exact writes.replace changed
  case h_4 id name _ _ => exact keptAt_change reads (fun heap changed => writes.write changed) _ placed
  case h_5 id name _ _ => exact kept_write_unless writes id name value.value _ placed reached
  all_goals exact kept_fault reads _ placed reached

theorem kept_isAssignable_indexer (reads : law.Reading) {index : Eval W TypedValue}
    (inside : law.Kept index) : law.Kept (Indexer.isAssignable index) := by
  refine kept_get reads fun state => keptAt_bind reads (kept_key reads inside state) ?_
  intro key reached _
  refine keptAt_get reads ?_
  split
  case h_3 id name _ _ => exact kept_query reads (.canWrite id name) reached
  all_goals exact kept_pure reads _ reached

theorem kept_values (reads : law.Reading) {args : List (Eval W TypedValue)}
    (inside : ∀ arg ∈ args, law.Kept arg) : law.Kept (Method.values args) := by
  induction args with
  | nil => exact kept_pure reads _
  | cons first rest ih =>
    refine kept_bind reads (inside first List.mem_cons_self) fun _ => ?_
    refine kept_bind reads (ih fun arg member => inside arg (List.mem_cons_of_mem _ member)) ?_
    exact fun _ => kept_pure reads _

theorem kept_arguments (reads : law.Reading) {args : List (Eval W TypedValue)}
    (inside : ∀ arg ∈ args, law.Kept arg) : law.Kept (Method.arguments args) := by
  unfold Method.arguments
  split
  · exact kept_pure reads _
  · exact kept_get reads fun state => kept_inScope reads state.root (kept_values reads inside) state

theorem kept_method (reads : law.Reading) (name : String) {args : List (Eval W TypedValue)}
    (inside : ∀ arg ∈ args, law.Kept arg) {span : Span} (placed : law.places span) :
    law.Kept (Method.evaluate name args span) := by
  refine kept_get reads fun state => keptAt_bind reads (kept_arguments reads inside state) ?_
  intro args reached _
  refine keptAt_get reads ?_
  split
  · next id _ =>
    refine keptAt_bind reads (kept_query reads (.invoke id name args) reached) ?_
    intro found reached _
    refine keptAt_bind reads (kept_orFault reads found _ placed reached) fun value reached _ => ?_
    exact keptAt_get reads (kept_pure reads _ reached)
  · dsimp only
    split
    · exact kept_pure reads _ reached
    · exact kept_fault reads _ placed reached

/-! ## Chains and nodes -/

theorem kept_follow (reads : law.Reading) (correct : Bool) {segments : List (Node W)}
    (inside : ∀ segment ∈ segments, law.ReadBy segment) (value : TypedValue) :
    law.Kept (Chain.follow correct segments value) := by
  induction segments generalizing value with
  | nil => exact kept_pure reads value
  | cons segment rest ih =>
    have first := inside segment List.mem_cons_self
    refine kept_bind reads ?_ (ih fun other member => inside other (List.mem_cons_of_mem _ member))
    exact kept_inScope reads value (kept_positioned reads correct first.placed first.evaluate)

theorem kept_read (reads : law.Reading) (correct : Bool) {head : Node W} {middle : List (Node W)}
    (first : law.ReadBy head) (inside : ∀ segment ∈ middle, law.ReadBy segment) :
    law.Kept (Chain.read correct head middle) :=
  kept_bind reads (kept_positioned reads correct first.placed first.evaluate)
    (kept_follow reads correct inside)

/-- An operation on the last segment is kept to if it is kept to on every segment. -/
theorem kept_atLast (reads : law.Reading) {head : Node W} {tail : List (Node W)}
    (first : law.ReadBy head) (inside : ∀ segment ∈ tail, law.ReadBy segment)
    {operation : Node W → Eval W α} (operated : ∀ segment ∈ head :: tail, law.Kept (operation segment)) :
    law.Kept (Chain.atLast head tail operation) := by
  obtain ⟨alone, last⟩ := List.forall_mem_cons.mp operated
  unfold Chain.atLast
  split
  · exact alone
  · next segment found =>
    have member : segment ∈ tail := List.mem_of_getLast? found
    refine kept_get reads fun state => ?_
    refine keptAt_bind reads (kept_read reads _ first ?_ state) fun target reached _ => ?_
    · exact fun other earlier => inside other ((List.dropLast_sublist tail).subset earlier)
    · exact kept_inScope reads target
        (kept_positioned reads _ (inside segment member).placed (last segment member)) reached

theorem readBy_chain (reads : law.Reading) {head : Node W} {tail : List (Node W)} {span : Span}
    (placed : law.places span) (first : law.ReadBy head)
    (inside : ∀ segment ∈ tail, law.ReadBy segment) : law.ReadBy (Chain.node head tail span) := by
  refine ⟨placed, ?_, ?_⟩
  · change law.Kept (Chain.evaluate head tail)
    unfold Chain.evaluate
    split
    · exact first.evaluate
    · exact kept_read reads true first inside
  · apply kept_atLast reads first inside
    exact List.forall_mem_cons.mpr
      ⟨first.isAssignable, fun segment member => (inside segment member).isAssignable⟩

theorem readBy_nested (reads : law.Reading) {node : Node W} (inside : law.ReadBy node) :
    law.ReadBy node.nested :=
  ⟨inside.placed, kept_inNode reads inside.placed inside.evaluate,
    kept_inNode reads inside.placed inside.isAssignable⟩

theorem readBy_valueOnly (reads : law.Reading) (name : String) {span : Span}
    (placed : law.places span) {evaluate : Eval W TypedValue} (inside : law.Kept evaluate) :
    law.ReadBy (Node.valueOnly name span evaluate) :=
  ⟨placed, inside, kept_pure reads false⟩

/-- Storing to a node with a level of nesting around it. -/
theorem kept_assign_nested (reads : law.Reading) {node : Node W} (placed : law.places node.span)
    {value : TypedValue} (inside : law.Kept (node.assign value)) :
    law.Kept (node.nested.assign value) :=
  kept_inNode reads placed inside

end

end Law

/-- Evaluating an expression and asking it keep to a law whose steps of reading do, if there may be a fault
at each of its nodes and if the steps of writing keep to the law where an assignment stands. Storing to the
expression keeps to it if the steps of writing do. -/
private theorem Expr.obeys [Host W] {law : Law W} (reads : law.Reading) (e : Expr)
    (placed : ∀ span ∈ e.spans, law.places span) (allowed : e.assigns = true → law.Writing) :
    law.ReadBy e.node ∧ (law.Writing → ∀ value, law.Kept (e.node.assign value)) := by
  induction e with
  | literal value span =>
    have here := placed span List.mem_cons_self
    refine ⟨Law.readBy_nested reads (Law.readBy_valueOnly reads _ here (Law.kept_pure reads _)), ?_⟩
    exact fun writes value => Law.kept_assign_nested reads here (Law.kept_fault reads _ here)
  | property name dotted span =>
    have here := placed span List.mem_cons_self
    refine ⟨Law.readBy_nested reads ⟨here, Law.kept_property reads name here,
      Law.kept_isAssignable_property reads name⟩, ?_⟩
    exact fun writes value =>
      Law.kept_assign_nested reads here (Law.kept_assign_property writes name here value)
  | reference name span =>
    have here := placed span List.mem_cons_self
    refine ⟨Law.readBy_nested reads ⟨here, Law.kept_variable reads name here,
      Law.kept_pure reads _⟩, ?_⟩
    exact fun writes value =>
      Law.kept_assign_nested reads here (Law.kept_assign_variable writes name here value)
  | indexer index span ih =>
    obtain ⟨here, below⟩ := List.forall_mem_cons.mp placed
    have inside := (ih below allowed).1.evaluate
    refine ⟨Law.readBy_nested reads ⟨here, Law.kept_indexer reads inside here,
      Law.kept_isAssignable_indexer reads inside⟩, ?_⟩
    exact fun writes value =>
      Law.kept_assign_nested reads here (Law.kept_assign_indexer writes inside here value)
  | method name args dotted span ih =>
    rw [spans, spansAll_eq_flatMap] at placed
    obtain ⟨here, below⟩ := List.forall_mem_cons.mp placed
    refine ⟨Law.readBy_nested reads (Law.readBy_valueOnly reads _ here ?_), ?_⟩
    · refine Law.kept_method reads name (fun arg member => ?_) here
      simp only [nodes_eq_map, List.mem_map] at member
      obtain ⟨_, ⟨e, member, rfl⟩, rfl⟩ := member
      exact (ih e member (fun place under => below place (List.mem_flatMap_of_mem member under))
        fun inside => allowed (assigns_of_arg member inside)).1.evaluate
    · exact fun writes value => Law.kept_assign_nested reads here (Law.kept_fault reads _ here)
  | assign target value span ofTarget ofValue =>
    have writes := allowed rfl
    obtain ⟨here, below⟩ := List.forall_mem_cons.mp placed
    obtain ⟨ofLeft, ofRight⟩ := List.forall_mem_append.mp below
    refine ⟨Law.readBy_nested reads (Law.readBy_valueOnly reads _ here ?_), ?_⟩
    · refine Law.kept_bind reads (ofValue ofRight fun _ => writes).1.evaluate fun result => ?_
      exact Law.kept_bind reads ((ofTarget ofLeft fun _ => writes).2 writes result) fun _ =>
        Law.kept_pure reads result
    · exact fun _ value => Law.kept_assign_nested reads here (Law.kept_fault reads _ here)
  | chain head tail span ofHead ofTail =>
    rw [spans, spansAll_eq_flatMap] at placed
    obtain ⟨here, below⟩ := List.forall_mem_cons.mp placed
    obtain ⟨ofLeft, ofRight⟩ := List.forall_mem_append.mp below
    have first := ofHead ofLeft fun inside => allowed (assigns_of_segment List.mem_cons_self inside)
    have others (e : Expr) (member : e ∈ tail) :=
      ofTail e member (fun place under => ofRight place (List.mem_flatMap_of_mem member under))
        fun inside => allowed (assigns_of_segment (List.mem_cons_of_mem _ member) inside)
    have inside : ∀ segment ∈ (nodes tail : List (Node W)), law.ReadBy segment := by
      intro segment member
      simp only [nodes_eq_map, List.mem_map] at member
      obtain ⟨e, member, rfl⟩ := member
      exact (others e member).1
    refine ⟨Law.readBy_nested reads (Law.readBy_chain reads here first.1 inside), ?_⟩
    intro writes value
    apply Law.kept_assign_nested reads here
    change law.Kept (Chain.atLast head.node (nodes tail) (·.assign value))
    apply Law.kept_atLast reads first.1 inside
    rw [nodes_eq_map, ← List.map_cons, List.forall_mem_map]
    exact List.forall_mem_cons.mpr
      ⟨first.2 writes value, fun e member => (others e member).2 writes value⟩

/-- Every operation on every expression keeps to a law whose steps do, if there may be a fault at each of
its nodes. -/
theorem Expr.keeps [Host W] {law : Law W} (writes : law.Writing) (e : Expr)
    (placed : ∀ span ∈ e.spans, law.places span := by exact fun _ _ => trivial) :
    law.KeptBy e.node := by
  obtain ⟨reading, storing⟩ := e.obeys writes.toReading placed fun _ => writes
  exact ⟨reading, storing writes⟩

/-- Evaluating an expression without assignments, and asking it, keep to a law whose steps of reading do. -/
theorem Expr.reads [Host W] {law : Law W} (reads : law.Reading) (e : Expr) (free : e.assigns = false)
    (placed : ∀ span ∈ e.spans, law.places span := by exact fun _ _ => trivial) :
    law.ReadBy e.node :=
  (e.obeys reads placed fun assigns => absurd assigns (by simp [free])).1

end DotChain
