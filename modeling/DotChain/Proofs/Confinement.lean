import DotChain.Proofs.Persistence

/-!
# Confinement of effects

An expression without assignments changes nothing when it is evaluated or asked, and at most one location
when a value is stored to it. Main statement: `effects_confined`, over any heap, with sharing and cycles,
and on every way out.

What is read on the way to a location is a law (`Law.untouched`). The location itself is found by cases on
the node at the end of the way (`Expr.confines`).
-/

namespace DotChain

variable {W α β : Type}

/-! ## What lasts -/

/-- What an operation may change for good: the variables, the heap and the world of the application. -/
structure Memory (W : Type) where
  bindings : Table TypedValue
  store : Store W

/-- What of a state lasts. -/
def State.memory (state : State W) : Memory W := ⟨state.bindings, state.store⟩

/-- What an application may make of a store when it is only asked, any number of times. -/
inductive Store.Asked [Host W] (before : Store W) : Store W → Prop
  | refl : Asked before before
  | query {reached : Store W} {α : Type} {action : HostAction W α} (earlier : Asked before reached)
    (asked : action.Query) : Asked before (action.outcome reached).2

theorem Store.Asked.trans [Host W] {before middle after : Store W} (first : before.Asked middle)
    (second : middle.Asked after) : before.Asked after := by
  induction second with
  | refl => exact first
  | query _ asked ih => exact ih.query asked

namespace Memory

variable [Host W]

/-- No variable and no container has changed, and the application was only asked. -/
structure Untouched (before after : Memory W) : Prop where
  bindings : after.bindings = before.bindings
  containers : before.store.heap.Extends after.store.heap
  asked : before.store.Asked after.store

/-- One location has got a value, and all else is the same: a variable, an item of a list, a field of an
object, or a property of the application, which was told once to write it and has. -/
inductive Puts (value : TypedValue) (before after : Memory W) : Prop
  | binding (name : String) (free : name ≠ Variable.this ∧ name ≠ Variable.root)
    (here : after.bindings.get? name = some value)
    (others : ∀ other, other ≠ name → after.bindings.get? other = before.bindings.get? other)
    (store : after.store = before.store)
  | item (id : ListId) (position : Nat) (bindings : after.bindings = before.bindings)
    (puts : before.store.heap.PutsItem after.store.heap id position value.value)
    (world : after.store.world = before.store.world)
  | field (id : ObjectId) (name : String) (bindings : after.bindings = before.bindings)
    (puts : before.store.heap.PutsField after.store.heap id name value.value)
    (world : after.store.world = before.store.world)
  | host (id : HostId) (name : String) (bindings : after.bindings = before.bindings)
    (containers : before.store.heap.Extends after.store.heap)
    (accepted : (Host.write id name value.value).outcome before.store = (.ok true, after.store))

/-- How storing a value may end: with one location changed, or with a failure and all variables and
containers as they were. -/
inductive Confined (value : TypedValue) (before : Memory W) : Except Failure Unit → Memory W → Prop
  | stored {reached after : Memory W} (found : before.Untouched reached)
    (puts : reached.Puts value after) : Confined value before (.ok ()) after
  | failed {failure : Failure} {after : Memory W} (bindings : after.bindings = before.bindings)
    (containers : before.store.heap.Extends after.store.heap) :
    Confined value before (.error failure) after

theorem Untouched.refl (memory : Memory W) : memory.Untouched memory :=
  ⟨rfl, Heap.Extends.refl _, .refl⟩

theorem Untouched.trans {before middle after : Memory W} (first : before.Untouched middle)
    (second : middle.Untouched after) : before.Untouched after :=
  ⟨second.bindings.trans first.bindings, first.containers.trans second.containers,
    first.asked.trans second.asked⟩

/-- What is read before a value is stored changes nothing. -/
theorem Confined.after {value : TypedValue} {before middle after : Memory W}
    {result : Except Failure Unit} (first : before.Untouched middle)
    (confined : middle.Confined value result after) : before.Confined value result after := by
  cases confined with
  | stored found puts => exact .stored (first.trans found) puts
  | failed bindings containers =>
    exact .failed (bindings.trans first.bindings) (first.containers.trans containers)

/-- After a success one location has changed. -/
theorem Confined.puts {value : TypedValue} {before after : Memory W} {result : Except Failure Unit}
    (confined : before.Confined value result after) (succeeded : result = .ok ()) :
    ∃ reached, before.Untouched reached ∧ reached.Puts value after := by
  cases confined with
  | stored found puts => exact ⟨_, found, puts⟩
  | failed => cases succeeded

/-- Moving an error changes nothing. -/
theorem Confined.mapError {value : TypedValue} {before after : Memory W}
    {result : Except Failure Unit} (move : Failure → Failure)
    (confined : before.Confined value result after) :
    before.Confined value (result.mapError move) after := by
  cases confined with
  | stored found puts => exact .stored found puts
  | failed bindings containers => exact .failed bindings containers

end Memory

/-! ## Reading -/

/-- The law that nothing is changed, under which there may be any failure. -/
def Law.untouched (W : Type) [Host W] : Law W where
  leads before after := before.memory.Untouched after.memory
  fails _ _ := True

theorem Law.untouched_reading [Host W] (leaves : Host.LeavesContainers W) :
    (Law.untouched W).Reading where
  refl state := Memory.Untouched.refl state.memory
  trans := Memory.Untouched.trans
  scope _ inside := inside
  node inside := inside
  query asked state := ⟨rfl, leaves (.query asked) state.store, .query .refl asked⟩
  fault _ _ _ := trivial
  moved _ _ := trivial
  failed_scope _ _ := trivial
  failed_node _ := trivial
  failed_call _ _ _ _ := trivial

/-! ## Storing -/

/-- Storing a value by a computation is confined when it starts in a given state. -/
def Eval.ConfinedAt [Host W] (value : TypedValue) (action : Eval W Unit) (state : State W) : Prop :=
  state.memory.Confined value (action.outcome state).1 (action.outcome state).2.memory

namespace Eval

section
variable [Host W] {value : TypedValue} {state : State W}

theorem confinedAt_fault (fault : Fault) (span : Span) :
    ConfinedAt value (Eval.fault fault span) state :=
  .failed rfl (Heap.Extends.refl _)

theorem confinedAt_get {next : State W → Eval W Unit} (after : (next state).ConfinedAt value state) :
    ConfinedAt value (get >>= next) state := by
  unfold ConfinedAt
  rw [outcome_bind, outcome_get]
  exact after

/-- After steps that change nothing a value may be stored. -/
theorem confinedAt_bind {first : Eval W α} {next : α → Eval W Unit}
    (before : (Law.untouched W).Kept first)
    (after : ∀ found reached, (next found).ConfinedAt value reached) :
    ConfinedAt value (first >>= next) state := by
  have untouched : state.memory.Untouched (first.outcome state).2.memory := (before state).leads
  unfold ConfinedAt
  rw [outcome_bind]
  generalize first.outcome state = ended at untouched ⊢
  obtain ⟨failure | found, reached⟩ := ended
  · exact .failed untouched.bindings untouched.containers
  · exact (after found reached).after untouched

theorem confinedAt_inScope {context : TypedValue} {body : Eval W Unit}
    (inside : body.ConfinedAt value (state.push context)) :
    ConfinedAt value (inScope context body) state := inside

theorem confinedAt_positioned {correct : Bool} {span : Span} {body : Eval W Unit}
    (inside : body.ConfinedAt value state) : ConfinedAt value (positioned correct span body) state := by
  unfold ConfinedAt
  rw [outcome_positioned]
  exact inside.mapError _

theorem confinedAt_inNode {span : Span} {body : Eval W Unit}
    (inside : body.ConfinedAt value state.enter) : ConfinedAt value (inNode span body) state := by
  unfold ConfinedAt
  rw [outcome_inNode]
  cases state.exhausted? with
  | some limit => exact .failed rfl (Heap.Extends.refl _)
  | none => exact inside

/-- Going on with a heap in which one location has changed, with a fault if the change is refused. -/
theorem confinedAt_change {changed : Option Heap}
    (puts : ∀ heap, changed = some heap → state.memory.Puts value (state.withHeap heap).memory)
    (fault : Fault) (span : Span) :
    ConfinedAt value (do set (state.withHeap (← orFault changed fault span))) state := by
  cases changed with
  | none => exact confinedAt_fault fault span
  | some heap => exact .stored (.refl _) (puts heap rfl)

/-- Telling the application to write, with a fault if it refuses. -/
theorem confinedAt_write (leaves : Host.LeavesContainers W) (id : HostId) (name : String)
    (fault : Fault) (span : Span) :
    ConfinedAt value (do unless ← Eval.host (Host.write id name value.value) do Eval.fault fault span)
      state := by
  have containers := leaves (.write id name value.value) state.store
  unfold ConfinedAt
  rw [outcome_bind, outcome_host]
  cases run : (Host.write id name value.value).outcome state.store with
  | mk result store =>
    rw [run] at containers
    change (ExceptT.run (Host.write id name value.value)).run state.store = _ at run
    rw [run]
    cases result with
    | error error => exact .failed rfl containers
    | ok written =>
      cases written with
      | false => exact .failed rfl containers
      | true => exact .stored (.refl _) (.host id name rfl containers run)

/-! ### Locations -/

theorem confinedAt_property (leaves : Host.LeavesContainers W) (name : String) (span : Span) :
    (Property.assign name span value).ConfinedAt value state := by
  refine confinedAt_get ?_
  cases context : state.current.value with
  | null => exact confinedAt_fault _ span
  | object id =>
    refine confinedAt_change (fun heap changed => ?_) _ span
    exact .field id name rfl (Heap.putsField_of_write? changed) rfl
  | host id => exact confinedAt_write leaves id name _ span
  | _ =>
    dsimp only
    split
    · exact confinedAt_fault _ span
    · exact confinedAt_fault _ span

theorem confinedAt_variable (name : String) (span : Span) :
    (Variable.assign name span value).ConfinedAt value state := by
  unfold Variable.assign
  split
  · next free =>
    have apart : name ≠ Variable.this ∧ name ≠ Variable.root := by
      simpa [Variable.isAssignable] using free
    refine .stored (.refl _) (.binding name apart ?_ (fun other different => ?_) rfl)
    · exact (Table.get?_insert ..).trans (if_pos rfl)
    · exact (Table.get?_insert ..).trans (if_neg different.symm)
  · exact confinedAt_fault _ span

/-- The key is read first. What it selects is then written. -/
theorem confinedAt_indexer (leaves : Host.LeavesContainers W) {index : Eval W TypedValue}
    (inside : (Law.untouched W).Kept index) (span : Span) :
    (Indexer.assign index span value).ConfinedAt value state := by
  have reads := Law.untouched_reading leaves
  refine confinedAt_get (confinedAt_bind (Law.kept_key reads inside) fun key reached => ?_)
  refine confinedAt_get ?_
  split
  case h_2 id i _ =>
    refine confinedAt_change (fun heap found => ?_) _ span
    obtain ⟨position, _, changed⟩ := Option.bind_eq_some_iff.mp found
    exact .item id position rfl (Heap.putsItem_of_replace? changed) rfl
  case h_4 id name _ =>
    refine confinedAt_change (fun heap changed => ?_) _ span
    exact .field id name rfl (Heap.putsField_of_write? changed) rfl
  case h_5 id name _ => exact confinedAt_write leaves id name _ span
  all_goals exact confinedAt_fault _ span

/-- The segments in front of the last one are read. -/
theorem confinedAt_chain (leaves : Host.LeavesContainers W) {head : Node W} {tail : List (Node W)}
    (first : (Law.untouched W).ReadBy head)
    (inside : ∀ segment ∈ tail, (Law.untouched W).ReadBy segment)
    (stored : ∀ segment ∈ head :: tail, ∀ state, (segment.assign value).ConfinedAt value state) :
    (Chain.atLast head tail (·.assign value)).ConfinedAt value state := by
  have reads := Law.untouched_reading leaves
  rcases List.eq_nil_or_concat tail with rfl | ⟨middle, last, split⟩
  · exact stored head List.mem_cons_self state
  · rw [List.concat_eq_append] at split
    subst split
    rw [Chain.atLast_concat]
    have earlier (segment : Node W) (member : segment ∈ middle) :=
      inside segment (List.mem_append_left _ member)
    refine confinedAt_get (confinedAt_bind (Law.kept_read reads _ first earlier) fun target reached => ?_)
    refine confinedAt_inScope (confinedAt_positioned ?_)
    exact stored last (List.mem_cons_of_mem _ (by simp)) _

end

end Eval

/-- Storing to an expression without assignments is confined. -/
theorem Expr.confines [Host W] (leaves : Host.LeavesContainers W) (e : Expr) (free : e.assigns = false)
    (value : TypedValue) (state : State W) : (e.node.assign value).ConfinedAt value state := by
  have reads := Law.untouched_reading leaves
  induction e generalizing state with
  | literal _ span => exact Eval.confinedAt_inNode (Eval.confinedAt_fault _ span)
  | property name _ span => exact Eval.confinedAt_inNode (Eval.confinedAt_property leaves name span)
  | reference name span => exact Eval.confinedAt_inNode (Eval.confinedAt_variable name span)
  | indexer index span _ =>
    exact Eval.confinedAt_inNode (Eval.confinedAt_indexer leaves (index.reads reads free).evaluate span)
  | method _ _ _ span _ => exact Eval.confinedAt_inNode (Eval.confinedAt_fault _ span)
  | assign _ _ _ _ _ => cases free
  | chain head tail span ofHead ofTail =>
    have segments (e : Expr) (member : e ∈ head :: tail) := free_of_segment free member
    obtain ⟨first, others⟩ := List.forall_mem_cons.mp segments
    refine Eval.confinedAt_inNode (Eval.confinedAt_chain leaves (head.reads reads first) ?_ ?_)
    · rw [nodes_eq_map, List.forall_mem_map]
      exact fun e member => e.reads reads (others e member)
    · rw [nodes_eq_map, ← List.map_cons, List.forall_mem_map]
      exact List.forall_mem_cons.mpr
        ⟨ofHead first, fun e member => ofTail e member (others e member)⟩

/-! ## What the application does when it is told to write -/

/-- The same application, but for what it does when it is told to write. -/
@[reducible]
def Host.withWrite (host : Host W) (write : HostId → String → Value → HostAction W Bool) : Host W :=
  { host with write := write }

/-- Evaluating a node and asking it are the same as for another node in the same place. -/
structure Node.ReadsAs (left right : Node W) : Prop where
  span : left.span = right.span
  evaluate : left.evaluate = right.evaluate
  isAssignable : left.isAssignable = right.isAssignable

theorem Node.readsAs_valueOnly {name : String} {span : Span} {evaluate other : Eval W TypedValue}
    (same : evaluate = other) :
    (Node.valueOnly name span evaluate).ReadsAs (Node.valueOnly name span other) := by
  subst same
  exact ⟨rfl, rfl, rfl⟩

namespace Chain

variable {ι : Type} {left right : ι → Node W} {head other : Node W} {tail : List ι}

private theorem follow_congr (same : ∀ i ∈ tail, (left i).ReadsAs (right i)) (correct : Bool)
    (value : TypedValue) :
    follow correct (tail.map left) value = follow correct (tail.map right) value := by
  induction tail generalizing value with
  | nil => rfl
  | cons i tail ih =>
    obtain ⟨first, others⟩ := List.forall_mem_cons.mp same
    simp only [List.map_cons, follow, first.span, first.evaluate]
    congr
    funext value
    exact ih others value

private theorem read_congr (first : head.ReadsAs other)
    (same : ∀ i ∈ tail, (left i).ReadsAs (right i)) (correct : Bool) :
    read correct head (tail.map left) = read correct other (tail.map right) := by
  simp only [read, first.span, first.evaluate]
  congr
  funext value
  exact follow_congr same correct value

theorem readsAs_node (first : head.ReadsAs other) (same : ∀ i ∈ tail, (left i).ReadsAs (right i))
    (span : Span) : (node head (tail.map left) span).ReadsAs (node other (tail.map right) span) := by
  refine ⟨rfl, ?_, ?_⟩
  · change evaluate head (tail.map left) = evaluate other (tail.map right)
    simp only [evaluate, List.isEmpty_map, read_congr first same, first.evaluate]
  · change atLast head (tail.map left) _ = atLast other (tail.map right) _
    rcases List.eq_nil_or_concat tail with rfl | ⟨middle, last, split⟩
    · exact first.isAssignable
    · rw [List.concat_eq_append] at split
      subst split
      have earlier (i : ι) (member : i ∈ middle) := same i (List.mem_append_left _ member)
      have final := same last (by simp)
      simp only [List.map_append, List.map_cons, List.map_nil, atLast_concat,
        read_congr first earlier, final.span, final.isAssignable]

end Chain

/-- It does not matter to reading what the application does when it is told to write. -/
theorem Expr.readsAs_withWrite [host : Host W] (write : HostId → String → Value → HostAction W Bool)
    (e : Expr) (free : e.assigns = false) : (@Expr.node W (host.withWrite write) e).ReadsAs e.node := by
  have nested {left right : Node W} (same : left.ReadsAs right) : left.nested.ReadsAs right.nested :=
    ⟨same.span, by simp only [Node.nested, same.span, same.evaluate],
      by simp only [Node.nested, same.span, same.isAssignable]⟩
  induction e with
  | literal value span => exact ⟨rfl, rfl, rfl⟩
  | property name dotted span => exact ⟨rfl, rfl, rfl⟩
  | reference name span => exact ⟨rfl, rfl, rfl⟩
  | indexer index span ih =>
    have inside := (ih free).evaluate
    refine nested ⟨rfl, ?_, ?_⟩
    · change Indexer.evaluate (@Expr.node W (host.withWrite write) index).evaluate span = _
      rw [inside]
    · change Indexer.isAssignable (@Expr.node W (host.withWrite write) index).evaluate = _
      rw [inside]
  | method name args dotted span ih =>
    have called (args : List (Eval W TypedValue)) :
        @Method.evaluate W (host.withWrite write) name args span = Method.evaluate name args span := rfl
    have same : (@Expr.nodes W (host.withWrite write) args).map (·.evaluate) =
        (nodes args).map (·.evaluate) := by
      rw [@nodes_eq_map W (host.withWrite write), nodes_eq_map, List.map_map, List.map_map]
      exact List.map_congr_left fun arg member => (ih arg member (free_of_arg free member)).evaluate
    apply nested
    apply Node.readsAs_valueOnly
    exact (called _).trans (congrArg (fun args => Method.evaluate name args span) same)
  | assign _ _ _ _ _ => cases free
  | chain head tail span ofHead ofTail =>
    have segments (e : Expr) (member : e ∈ head :: tail) := free_of_segment free member
    obtain ⟨first, others⟩ := List.forall_mem_cons.mp segments
    refine nested ?_
    rw [@nodes_eq_map W (host.withWrite write), nodes_eq_map]
    exact Chain.readsAs_node (ofHead first) (fun e member => ofTail e member (others e member)) span

/-! ## Effects -/

/-- An expression without assignments changes no variable and no container when it is evaluated or asked,
and tells the application to write nothing. Storing a value to it changes one location, or none if it
fails. -/
theorem effects_confined [host : Host W] (leaves : Host.LeavesContainers W) (e : Expr)
    (free : e.assigns = false) (value : TypedValue) (state : State W) :
    state.memory.Untouched (e.evaluate.outcome state).2.memory ∧
    state.memory.Untouched (e.isAssignable.outcome state).2.memory ∧
    (∀ write, @Expr.evaluate W (host.withWrite write) e = e.evaluate ∧
      @Expr.isAssignable W (host.withWrite write) e = e.isAssignable) ∧
    state.memory.Confined value ((e.store value).outcome state).1
      ((e.store value).outcome state).2.memory := by
  have reading := e.reads (Law.untouched_reading leaves) free
  refine ⟨(reading.evaluate state).leads, (reading.isAssignable state).leads, fun write => ?_, ?_⟩
  · have same := e.readsAs_withWrite write free
    exact ⟨same.evaluate, same.isAssignable⟩
  · exact e.confines leaves free value state

/-- A root that holds itself and a list, which it holds under two names. -/
private def shared : State Scripted.World :=
  .initial ⟨.object ⟨0⟩, .object⟩ .standard
    ⟨⟨#[[.int 1, .int 2]],
      #[⟨none, .ofList [("me", .plain (.object ⟨0⟩)), ("marks", ⟨.list ⟨0⟩, false, none⟩),
        ("notes", .plain (.list ⟨0⟩))]⟩], #[]⟩, .empty⟩

/-- `me.marks[1]`. -/
private def secondMark : Expr :=
  .chain (.property "me" false ⟨0, 2⟩)
    [.property "marks" true ⟨3, 8⟩, .indexer (.literal (.int 1) ⟨9, 10⟩) ⟨8, 11⟩] ⟨0, 11⟩

/-- Null is stored in the list that both names refer to, and nowhere else. -/
theorem effects_confined_shared :
    Host.LeavesContainers Scripted.World ∧ secondMark.assigns = false ∧
    ((secondMark.store .null).outcome shared).2.heap.items ⟨0⟩ = [.int 1, .null] ∧
    ∃ reached, shared.memory.Untouched reached ∧
      reached.Puts .null ((secondMark.store .null).outcome shared).2.memory := by
  obtain ⟨_, _, _, confined⟩ := effects_confined Scripted.leavesContainers secondMark rfl .null shared
  exact ⟨Scripted.leavesContainers, rfl, rfl, confined.puts rfl⟩

end DotChain
