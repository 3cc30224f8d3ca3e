import DotChain.Expr.Cost
import DotChain.Proofs.Persistence

/-!
# Costs of evaluation

The counts of an evaluation do not depend on what is evaluated: whoever evaluates an expression with success,
or stores to it, pays what the tree costs, and whoever fails pays no more. Main statement:
`counters_static`.
-/

namespace DotChain

variable {W α β : Type}

/-! ## Paying -/

/-- The greatest depth on record after a cost was paid at a depth. -/
def Cost.deepest (cost : Cost) (record depth : Nat) : Nat :=
  if cost.reach = 0 then record else max record (depth + cost.reach)

namespace Cost

theorem deepest_andThen (first second : Cost) (record depth : Nat) :
    (first.andThen second).deepest record depth =
      second.deepest (first.deepest record depth) depth := by
  have reach : (first.andThen second).reach = max first.reach second.reach := rfl
  unfold deepest
  split <;> split <;> split <;> omega

/-- A scope puts the depth on record to which it leads. -/
theorem deepest_inScope (cost : Cost) (record depth : Nat) :
    cost.inScope.deepest record depth = cost.deepest (max record (depth + 1)) (depth + 1) := by
  have reach : cost.inScope.reach = cost.reach + 1 := rfl
  unfold deepest
  split <;> split <;> omega

theorem deepest_of_le (cost : Cost) {record depth : Nat} (recorded : depth ≤ record) :
    cost.deepest record depth = max record (depth + cost.reach) := by
  unfold deepest
  split <;> omega

end Cost

/-- A cost was paid: the contexts are as before and the counts have grown by so much. All but the greatest
depth wrap. -/
structure State.Charged (before after : State W) (spent : Cost) : Prop where
  contexts : after.contexts = before.contexts
  nodes : after.counters.nodes = before.counters.nodes + .ofNat spent.nodes
  pushes : after.counters.pushes = before.counters.pushes + .ofNat spent.scopes
  pops : after.counters.pops = before.counters.pops + .ofNat spent.scopes
  maxDepth : after.counters.maxDepth = spent.deepest before.counters.maxDepth before.contexts.length

namespace State.Charged

theorem free {before after : State W} (contexts : after.contexts = before.contexts)
    (counters : after.counters = before.counters) : before.Charged after .free := by
  refine ⟨contexts, ?_, ?_, ?_, ?_⟩
  all_goals rw [counters]; simp [Cost.free, Cost.deepest]

theorem trans {before middle after : State W} {spent more : Cost} (first : before.Charged middle spent)
    (second : middle.Charged after more) : before.Charged after (spent.andThen more) where
  contexts := second.contexts.trans first.contexts
  nodes := by rw [second.nodes, first.nodes, Cost.andThen, UInt64.ofNat_add, UInt64.add_assoc]
  pushes := by rw [second.pushes, first.pushes, Cost.andThen, UInt64.ofNat_add, UInt64.add_assoc]
  pops := by rw [second.pops, first.pops, Cost.andThen, UInt64.ofNat_add, UInt64.add_assoc]
  maxDepth := by rw [second.maxDepth, first.maxDepth, first.contexts, Cost.deepest_andThen]

/-- One and then so many is so many and one, also where the count wraps. -/
theorem count_succ (count : UInt64) (more : Nat) :
    count + 1 + .ofNat more = count + .ofNat (more + 1) := by
  rw [UInt64.ofNat_add, UInt64.add_assoc, UInt64.add_comm 1]
  rfl

/-- The end of a scope removes the context that its start has added. -/
theorem scope {state final : State W} {spent : Cost} (value : TypedValue)
    (inside : (state.push value).Charged final spent) :
    state.Charged (final.cut state.contexts.length) spent.inScope := by
  obtain ⟨contexts, nodes, pushes, pops, maxDepth⟩ := inside
  have added : final.contexts = [value] ++ state.contexts := contexts
  refine ⟨State.contexts_cut final [value] state.contexts added, nodes, ?_, ?_, ?_⟩
  · exact pushes.trans (count_succ state.counters.pushes spent.scopes)
  · rw [State.pops_cut final [value] state.contexts added, pops, Cost.inScope, UInt64.ofNat_add,
      UInt64.add_assoc]
    rfl
  · rw [Cost.deepest_inScope]
    exact maxDepth

theorem node {state final : State W} {spent : Cost} (inside : state.enter.Charged final spent) :
    state.Charged final.leave spent.inNode := by
  obtain ⟨contexts, nodes, pushes, pops, maxDepth⟩ := inside
  exact ⟨contexts, nodes.trans (count_succ state.counters.nodes spent.nodes), pushes, pops, maxDepth⟩

end State.Charged

/-! ## Computations -/

namespace Eval

/-- A computation costs at most so much when it starts in a given state, and exactly that if it succeeds. -/
def CostsAt (cost : Cost) (action : Eval W α) (state : State W) : Prop :=
  ∃ spent, spent.Within cost ∧ state.Charged (action.outcome state).2 spent ∧
    ∀ value, (action.outcome state).1 = .ok value → spent = cost

/-- A computation costs so much wherever it starts. -/
def Costs (cost : Cost) (action : Eval W α) : Prop := ∀ state, action.CostsAt cost state

section
variable {cost : Cost} {state : State W}

/-- What leaves the contexts and the counts alone costs nothing. -/
theorem costsAt_free {action : Eval W α}
    (contexts : (action.outcome state).2.contexts = state.contexts)
    (counters : (action.outcome state).2.counters = state.counters) : action.CostsAt .free state :=
  ⟨.free, .refl _, .free contexts counters, fun _ _ => rfl⟩

theorem costsAt_pure (value : α) : (pure value : Eval W α).CostsAt .free state := costsAt_free rfl rfl

/-- A fault may come before anything is paid. -/
theorem costsAt_fault (fault : Fault) (span : Span) :
    (Eval.fault fault span : Eval W α).CostsAt cost state :=
  ⟨.free, .free cost, .free rfl rfl, fun _ succeeded => by simp at succeeded⟩

theorem costsAt_orFault (found : Option α) (fault : Fault) (span : Span) :
    (orFault found fault span : Eval W α).CostsAt .free state := by
  cases found with
  | none => exact costsAt_fault fault span
  | some value => exact costsAt_pure value

theorem costsAt_host (action : HostAction W α) : (Eval.host action).CostsAt .free state :=
  costsAt_free rfl rfl

/-- One computation after another costs what both cost. -/
theorem costsAt_bind {first : Eval W α} {next : α → Eval W β} {later : Cost}
    (before : first.CostsAt cost state) (after : ∀ value, (next value).Costs later) :
    (first >>= next).CostsAt (cost.andThen later) state := by
  obtain ⟨spent, within, charged, whole⟩ := before
  unfold CostsAt
  rw [outcome_bind]
  generalize first.outcome state = ended at charged whole ⊢
  obtain ⟨failure | value, reached⟩ := ended
  · exact ⟨spent, within.before later, charged, fun _ succeeded => by cases succeeded⟩
  · obtain ⟨more, within', charged', whole'⟩ := after value reached
    obtain rfl := whole value rfl
    refine ⟨spent.andThen more, within'.after spent, charged.trans charged', fun result succeeded => ?_⟩
    rw [whole' result succeeded]

theorem costsAt_after {first : Eval W α} {next : α → Eval W β} (before : first.CostsAt .free state)
    (after : ∀ value, (next value).Costs cost) : (first >>= next).CostsAt cost state :=
  Cost.free_andThen cost ▸ costsAt_bind before after

theorem costsAt_before {first : Eval W α} {next : α → Eval W β} (before : first.CostsAt cost state)
    (after : ∀ value, (next value).Costs .free) : (first >>= next).CostsAt cost state :=
  Cost.andThen_free cost ▸ costsAt_bind before after

theorem costsAt_get {next : State W → Eval W β} (after : (next state).CostsAt cost state) :
    (get >>= next).CostsAt cost state := by
  unfold CostsAt
  rw [outcome_bind, outcome_get]
  exact after

/-- A scope counts. -/
theorem costs_inScope {body : Eval W α} (inside : body.Costs cost) (value : TypedValue) :
    (inScope value body).Costs cost.inScope := by
  intro state
  obtain ⟨spent, within, charged, whole⟩ := inside (state.push value)
  refine ⟨spent.inScope, within.inScope, charged.scope, fun result succeeded => ?_⟩
  rw [whole result succeeded]

/-- A node counts if it is entered. -/
theorem costs_inNode {body : Eval W α} (inside : body.Costs cost) (span : Span) :
    (inNode span body).Costs cost.inNode := by
  intro state
  obtain ⟨spent, within, charged, whole⟩ := inside state.enter
  unfold CostsAt
  rw [outcome_inNode]
  cases state.exhausted? with
  | some limit =>
    exact ⟨.free, .free _, .free rfl rfl, fun _ succeeded => by cases succeeded⟩
  | none =>
    refine ⟨spent.inNode, within.inNode, charged.node, fun result succeeded => ?_⟩
    rw [whole result succeeded]

theorem costs_positioned {body : Eval W α} (inside : body.Costs cost) (correct : Bool) (span : Span) :
    (positioned correct span body).Costs cost := by
  intro state
  obtain ⟨spent, within, charged, whole⟩ := inside state
  unfold CostsAt
  rw [outcome_positioned]
  refine ⟨spent, within, charged, fun result succeeded => ?_⟩
  cases run : (body.outcome state).1 with
  | error failure =>
    rw [run] at succeeded
    cases succeeded
  | ok found => exact whole found run

/-- Going on with the heap that a change makes costs nothing. -/
theorem costsAt_change (changed : Option Heap) (fault : Fault) (span : Span) :
    (do set (state.withHeap (← orFault changed fault span)) : Eval W Unit).CostsAt .free state := by
  cases changed with
  | none => exact costsAt_fault fault span
  | some heap => exact costsAt_free rfl rfl

/-! ### Variables and keys -/

theorem costs_variable (name : String) (span : Span) :
    (Variable.evaluate name span : Eval W TypedValue).Costs .free := by
  refine fun state => costsAt_get ?_
  split
  · exact costsAt_pure _
  · split
    · exact costsAt_pure _
    · exact costsAt_orFault _ _ span

theorem costs_assign_variable (name : String) (span : Span) (value : TypedValue) :
    (Variable.assign name span value : Eval W Unit).Costs .free := by
  intro state
  unfold Variable.assign
  split
  · exact costsAt_free rfl rfl
  · exact costsAt_fault _ span

/-- A key is evaluated in a scope. -/
theorem costs_key {index : Eval W TypedValue} (inside : index.Costs cost) :
    (Indexer.key index).Costs cost.inScope := fun state =>
  costsAt_get (costsAt_before (costs_inScope inside state.root state) fun _ _ => costsAt_pure _)

variable [Host W]

/-! ### Properties, indices and methods -/

theorem costsAt_write (id : HostId) (name : String) (value : Value) (fault : Fault) (span : Span) :
    (do unless ← Eval.host (Host.write id name value) do Eval.fault fault span :
      Eval W Unit).CostsAt .free state := by
  refine costsAt_after (costsAt_host _) fun written state => ?_
  cases written with
  | true => exact costsAt_pure _
  | false => exact costsAt_fault fault span

theorem costs_property (name : String) (span : Span) :
    (Property.evaluate name span : Eval W TypedValue).Costs .free := by
  refine fun state => costsAt_get ?_
  cases context : state.current.value with
  | null => exact costsAt_fault _ span
  | object id => exact costsAt_orFault _ _ span
  | host id =>
    refine costsAt_after (costsAt_host _) fun found _ => ?_
    refine costsAt_after (costsAt_orFault found _ span) fun value _ => ?_
    exact costsAt_get (costsAt_pure _)
  | _ => exact costsAt_after (costsAt_orFault _ _ span) fun _ _ => costsAt_pure _

theorem costs_assign_property (name : String) (span : Span) (value : TypedValue) :
    (Property.assign name span value : Eval W Unit).Costs .free := by
  refine fun state => costsAt_get ?_
  cases context : state.current.value with
  | null => exact costsAt_fault _ span
  | object id => exact costsAt_change _ _ span
  | host id => exact costsAt_write id name value.value _ span
  | _ =>
    dsimp only
    split
    · exact costsAt_fault _ span
    · exact costsAt_fault _ span

theorem costs_indexer {index : Eval W TypedValue} (inside : index.Costs cost) (span : Span) :
    (Indexer.evaluate index span).Costs cost.inScope := by
  refine fun state => costsAt_get (costsAt_before (costs_key inside state) fun key reached => ?_)
  refine costsAt_get ?_
  split
  case h_7 id name _ _ =>
    refine costsAt_after (costsAt_host _) fun found _ => ?_
    refine costsAt_after (costsAt_orFault found _ span) fun value _ => ?_
    exact costsAt_get (costsAt_pure _)
  case h_2 | h_3 | h_6 => exact costsAt_orFault _ _ span
  all_goals exact costsAt_fault _ span

theorem costs_assign_indexer {index : Eval W TypedValue} (inside : index.Costs cost) (span : Span)
    (value : TypedValue) : (Indexer.assign index span value).Costs cost.inScope := by
  refine fun state => costsAt_get (costsAt_before (costs_key inside state) fun key reached => ?_)
  refine costsAt_get ?_
  split
  case h_2 => exact costsAt_change _ _ span
  case h_4 => exact costsAt_change _ _ span
  case h_5 id name _ => exact costsAt_write id name value.value _ span
  all_goals exact costsAt_fault _ span

theorem costs_values {es : List Expr} (inside : ∀ e ∈ es, (e.node.evaluate : Eval W _).Costs e.cost) :
    (Method.values (es.map (·.node.evaluate)) : Eval W _).Costs (Cost.total (es.map Expr.cost)) := by
  induction es with
  | nil => exact fun state => costsAt_pure []
  | cons e es ih =>
    obtain ⟨first, others⟩ := List.forall_mem_cons.mp inside
    refine fun state => costsAt_bind (first state) fun typed reached => ?_
    exact costsAt_before (ih others reached) fun _ _ => costsAt_pure _

/-- Without arguments there is no scope. -/
theorem costs_arguments {args : List Expr}
    (inside : ∀ arg ∈ args, (arg.node.evaluate : Eval W _).Costs arg.cost) :
    (Method.arguments (args.map (·.node.evaluate)) : Eval W _).Costs
      (if args.isEmpty then .free else (Cost.total (args.map Expr.cost)).inScope) := by
  intro state
  cases args with
  | nil => exact costsAt_pure []
  | cons first rest => exact costsAt_get (costs_inScope (costs_values inside) state.root state)

theorem costs_method (name : String) {args : List Expr}
    (inside : ∀ arg ∈ args, (arg.node.evaluate : Eval W _).Costs arg.cost) (span : Span) :
    (Method.evaluate name (args.map (·.node.evaluate)) span : Eval W _).Costs
      (if args.isEmpty then .free else (Cost.total (args.map Expr.cost)).inScope) := by
  refine fun state => costsAt_get (costsAt_before (costs_arguments inside state) fun values reached => ?_)
  refine costsAt_get ?_
  split
  · refine costsAt_after (costsAt_host _) fun found _ => ?_
    refine costsAt_after (costsAt_orFault found _ span) fun value _ => ?_
    exact costsAt_get (costsAt_pure _)
  · dsimp only
    split
    · exact costsAt_pure _
    · exact costsAt_fault _ span

/-! ### Chains -/

theorem costs_follow (correct : Bool) {es : List Expr}
    (inside : ∀ e ∈ es, (e.node.evaluate : Eval W _).Costs e.cost) (value : TypedValue) :
    (Chain.follow correct (es.map Expr.node) value : Eval W _).Costs
      (Cost.total (es.map (·.cost.inScope))) := by
  induction es generalizing value with
  | nil => exact fun state => costsAt_pure value
  | cons e es ih =>
    obtain ⟨first, others⟩ := List.forall_mem_cons.mp inside
    refine fun state => costsAt_bind ?_ fun value => ih others value
    exact costs_inScope (costs_positioned first correct _) value state

theorem costs_read (correct : Bool) {head : Expr} {middle : List Expr}
    (first : (head.node.evaluate : Eval W _).Costs head.cost)
    (inside : ∀ e ∈ middle, (e.node.evaluate : Eval W _).Costs e.cost) :
    (Chain.read correct head.node (middle.map Expr.node) : Eval W _).Costs
      (head.cost.andThen (Cost.total (middle.map (·.cost.inScope)))) := fun state =>
  costsAt_bind (costs_positioned first correct _ state) fun value => costs_follow correct inside value

/-- Whatever is done at the last segment, if it costs what the segment costs. -/
theorem costs_atLast {head : Expr} {tail : List Expr} {operation : Node W → Eval W α}
    (first : (head.node.evaluate : Eval W _).Costs head.cost)
    (inside : ∀ e ∈ tail, (e.node.evaluate : Eval W _).Costs e.cost)
    (operated : ∀ e ∈ head :: tail, (operation e.node).Costs e.cost) :
    (Chain.atLast head.node (tail.map Expr.node) operation).Costs
      (head.cost.andThen (Cost.total (tail.map (·.cost.inScope)))) := by
  rcases List.eq_nil_or_concat tail with rfl | ⟨middle, last, split⟩
  · rw [List.map_nil, Cost.total_nil, Cost.andThen_free]
    exact operated head List.mem_cons_self
  · rw [List.concat_eq_append] at split
    subst split
    have earlier (e : Expr) (member : e ∈ middle) := inside e (List.mem_append_left _ member)
    -- The scope of the last segment comes after those of the segments in front of it.
    rw [List.map_append, List.map_append, List.map_singleton, List.map_singleton, Chain.atLast_concat,
      Cost.total_concat, ← Cost.andThen_assoc]
    refine fun state => costsAt_get (costsAt_bind (costs_read _ first earlier state) fun target => ?_)
    exact costs_inScope (costs_positioned (operated last (by simp)) _ _) target

theorem costs_chain {head : Expr} {tail : List Expr}
    (first : (head.node.evaluate : Eval W _).Costs head.cost)
    (inside : ∀ e ∈ tail, (e.node.evaluate : Eval W _).Costs e.cost) :
    (Chain.evaluate head.node (tail.map Expr.node) : Eval W _).Costs
      (head.cost.andThen (Cost.total (tail.map (·.cost.inScope)))) := by
  cases tail with
  | nil =>
    rw [List.map_nil, Cost.total_nil, Cost.andThen_free]
    exact first
  | cons next rest => exact costs_read true first inside

end

end Eval

/-! ## Expressions -/

/-- Evaluating an expression and storing to it cost what the tree costs. -/
theorem Expr.costs [Host W] (e : Expr) : (e.node.evaluate : Eval W _).Costs e.cost ∧
    ∀ value, (e.node.assign value : Eval W _).Costs e.cost := by
  induction e with
  | literal value span =>
    refine ⟨Eval.costs_inNode (fun state => Eval.costsAt_pure _) span, fun _ => ?_⟩
    exact Eval.costs_inNode (fun state => Eval.costsAt_fault _ span : Eval.Costs .free _) span
  | property name dotted span =>
    exact ⟨Eval.costs_inNode (Eval.costs_property name span) span,
      fun value => Eval.costs_inNode (Eval.costs_assign_property name span value) span⟩
  | reference name span =>
    exact ⟨Eval.costs_inNode (Eval.costs_variable name span) span,
      fun value => Eval.costs_inNode (Eval.costs_assign_variable name span value) span⟩
  | indexer index span ih =>
    rw [cost_indexer]
    exact ⟨Eval.costs_inNode (Eval.costs_indexer ih.1 span) span,
      fun value => Eval.costs_inNode (Eval.costs_assign_indexer ih.1 span value) span⟩
  | method name args dotted span ih =>
    rw [cost_method]
    have called := Eval.costs_method name (fun arg member => (ih arg member).1) span
    refine ⟨Eval.costs_inNode ?_ span, fun _ => ?_⟩
    · rw [nodes_eq_map, List.map_map]
      exact called
    · exact Eval.costs_inNode (fun state => Eval.costsAt_fault _ span) span
  | assign target value span ofTarget ofValue =>
    rw [cost_assign]
    refine ⟨Eval.costs_inNode (fun state => ?_) span, fun _ => ?_⟩
    · refine Eval.costsAt_bind (ofValue.1 state) fun result reached => ?_
      exact Eval.costsAt_before (ofTarget.2 result reached) fun _ _ => Eval.costsAt_pure result
    · exact Eval.costs_inNode (fun state => Eval.costsAt_fault _ span) span
  | chain head tail span ofHead ofTail =>
    rw [cost_chain]
    have inside (e : Expr) (member : e ∈ tail) := (ofTail e member).1
    refine ⟨?_, fun value => ?_⟩
    · refine Eval.costs_inNode ?_ span
      rw [nodes_eq_map]
      exact Eval.costs_chain ofHead.1 inside
    · refine Eval.costs_inNode ?_ span
      rw [nodes_eq_map]
      change (Chain.atLast head.node (tail.map node) (·.assign value)).Costs _
      refine Eval.costs_atLast ofHead.1 inside ?_
      exact List.forall_mem_cons.mpr ⟨ofHead.2 value, fun e member => (ofTail e member).2 value⟩

/-! ## Depths on record -/

/-- The greatest depth on record is no less than the present depth of contexts. -/
def State.Recorded (state : State W) : Prop := state.contexts.length ≤ state.counters.maxDepth

namespace State

theorem recorded_initial (root : TypedValue) (config : Config) (store : Store W) :
    (State.initial root config store).Recorded := Nat.le_refl 0

theorem recorded_push (state : State W) (value : TypedValue) : (state.push value).Recorded :=
  Nat.le_max_right ..

theorem recorded_pop? {state rest : State W} {value : TypedValue} (recorded : state.Recorded)
    (popped : state.pop? = some (value, rest)) : rest.Recorded := by
  unfold pop? at popped
  split at popped
  · cases popped
  · next first others split =>
    obtain ⟨_, rfl⟩ := Prod.mk.inj (Option.some.inj popped)
    rw [Recorded, split] at recorded
    exact Nat.le_of_succ_le recorded

theorem recorded_cut {state : State W} (recorded : state.Recorded) (depth : Nat) :
    (state.cut depth).Recorded := by
  refine Nat.le_trans ?_ recorded
  change (state.contexts.drop _).length ≤ state.contexts.length
  rw [List.length_drop]
  exact Nat.sub_le ..

end State

/-- The law that depths stay on record, under which there may be any failure. -/
def Law.recorded (W : Type) : Law W where
  leads before after := before.Recorded → after.Recorded
  fails _ _ := True

theorem Law.recorded_writing [Host W] : (Law.recorded W).Writing where
  refl _ := id
  trans first second := second ∘ first
  scope value inside _ := State.recorded_cut (inside (State.recorded_push _ value)) _
  node inside := inside
  query _ _ := id
  fault _ _ _ := trivial
  moved _ _ := trivial
  failed_scope _ _ := trivial
  failed_node _ := trivial
  failed_call _ _ _ _ := trivial
  bind _ _ _ := id
  replace _ := id
  write _ := id
  host_write _ _ _ _ := id

/-- Depths stay on record whatever is done. -/
theorem session_recorded [Host W] (session : List Request) {state : State W}
    (recorded : state.Recorded) : (state.afterSession session).Recorded := by
  induction session generalizing state with
  | nil => exact recorded
  | cons request session ih =>
    have kept (e : Expr) := e.keeps (Law.recorded_writing (W := W))
    refine ih ?_
    cases request with
    | evaluate e => exact ((kept e).evaluate state).leads recorded
    | store e value => exact ((kept e).assign value state).leads recorded
    | ask e => exact ((kept e).isAssignable state).leads recorded

/-! ## Counts -/

/-- What a run on an expression counts: if it succeeds, what the tree tells, and if it fails, no more.
All but the greatest depth wrap. Depths are on record wherever a session leads (`session_recorded`). -/
structure State.Counted (before : State W) (e : Expr) (run : Except Failure α × State W) : Prop where
  nodes {result : α} : run.1 = .ok result →
    run.2.counters.nodes = before.counters.nodes + .ofNat e.size
  pushes {result : α} : run.1 = .ok result →
    run.2.counters.pushes = before.counters.pushes + .ofNat e.scopes
  pops {result : α} : run.1 = .ok result →
    run.2.counters.pops = before.counters.pops + .ofNat e.scopes
  maxDepth {result : α} : run.1 = .ok result → before.Recorded →
    run.2.counters.maxDepth = max before.counters.maxDepth (before.contexts.length + e.reach)
  failed {failure : Failure} : run.1 = .error failure →
    ∃ nodes scopes, nodes ≤ e.size ∧ scopes ≤ e.scopes ∧
      run.2.counters.nodes = before.counters.nodes + .ofNat nodes ∧
      run.2.counters.pushes = before.counters.pushes + .ofNat scopes ∧
      run.2.counters.pops = before.counters.pops + .ofNat scopes

private theorem counted_of_costs {action : Eval W α} {state : State W} {e : Expr}
    (costs : action.CostsAt e.cost state) : state.Counted e (action.outcome state) := by
  obtain ⟨spent, within, charged, whole⟩ := costs
  have paid {result : α} (succeeded : (action.outcome state).1 = .ok result) :
      state.Charged (action.outcome state).2 e.cost := whole result succeeded ▸ charged
  refine ⟨fun succeeded => (paid succeeded).nodes, fun succeeded => (paid succeeded).pushes,
    fun succeeded => (paid succeeded).pops, fun succeeded recorded => ?_, fun _ => ?_⟩
  · exact (paid succeeded).maxDepth.trans (Cost.deepest_of_le _ recorded)
  · exact ⟨spent.nodes, spent.scopes, within.nodes, within.scopes, charged.nodes, charged.pushes,
      charged.pops⟩

/-- Evaluating an expression and storing to it enter each node once and open each scope once if they
succeed, whatever the state and whatever is found there. -/
theorem counters_static [Host W] (e : Expr) (value : TypedValue) (state : State W) :
    state.Counted e (e.evaluate.outcome state) ∧ state.Counted e ((e.store value).outcome state) := by
  obtain ⟨evaluated, stored⟩ := e.costs (W := W)
  exact ⟨counted_of_costs (evaluated state), counted_of_costs (stored value state)⟩

/-- `xs[i.n]`. -/
private def pickedByField : Expr :=
  .chain (.property "xs" false ⟨0, 2⟩)
    [.indexer (.chain (.property "i" false ⟨3, 4⟩) [.property "n" true ⟨5, 6⟩] ⟨3, 6⟩) ⟨2, 7⟩] ⟨0, 7⟩

/-- A list and an object with a number. -/
private def listAndIndex : State Unit :=
  .initial ⟨.object ⟨0⟩, .object⟩ .standard
    ⟨⟨#[[.bool true, .bool false]],
      #[⟨none, .ofList [("i", .plain (.object ⟨1⟩)), ("xs", .plain (.list ⟨0⟩))]⟩,
        ⟨none, .ofList [("n", .plain (.int 1))]⟩], #[]⟩, ()⟩

example : (pickedByField.evaluate.outcome listAndIndex).1 = .ok ⟨.bool false, .bool⟩ ∧
    (pickedByField.evaluate.outcome listAndIndex).2.counters = ⟨6, 3, 3, 3⟩ ∧
    pickedByField.cost = ⟨6, 3, 3⟩ := ⟨rfl, rfl, rfl⟩

end DotChain
