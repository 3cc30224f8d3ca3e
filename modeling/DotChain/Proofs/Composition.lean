import DotChain.Proofs.Costs
import DotChain.Transcript

/-!
# How computations are put together

Every operation on an expression is put together, one after another and inside scopes and nodes, from steps
that leave the active contexts alone. Main statement: `Expr.composed`.
-/

namespace DotChain

variable {W α β : Type}

/-- The active contexts are as before, and so are the counts that speak of them. -/
structure State.Still (before after : State W) : Prop where
  contexts : after.contexts = before.contexts
  pushes : after.counters.pushes = before.counters.pushes
  pops : after.counters.pops = before.counters.pops
  maxDepth : after.counters.maxDepth = before.counters.maxDepth

theorem State.Still.refl (state : State W) : state.Still state := ⟨rfl, rfl, rfl, rfl⟩

theorem State.still_enter (state : State W) : state.Still state.enter := ⟨rfl, rfl, rfl, rfl⟩

theorem State.still_leave (state : State W) : state.Still state.leave := ⟨rfl, rfl, rfl, rfl⟩

namespace Eval

/-- Runs a computation and goes on however it ends. -/
def attempt (action : Eval W α) : Eval W Unit := mk fun state => (.ok (), (action.outcome state).2)

/-- The ways to build a computation from steps that leave the active contexts alone and from single changes
of them. -/
inductive Composed : {α : Type} → Eval W α → Prop where
  | still {α : Type} {action : Eval W α} (still : ∀ state : State W, state.Still (action.outcome state).2) :
    Composed action
  | push (value : TypedValue) : Composed (modify (·.push value) : Eval W PUnit)
  | pop : Composed popContext
  | andThen {α β : Type} {first : Eval W α} {next : α → Eval W β} (before : Composed first)
    (after : ∀ value, Composed (next value)) : Composed (first >>= next)
  | inScope {α : Type} {body : Eval W α} (value : TypedValue) (inside : Composed body) :
    Composed (inScope value body)
  | inNode {α : Type} {body : Eval W α} (span : Span) (inside : Composed body) : Composed (inNode span body)
  | positioned {α : Type} {body : Eval W α} (correct : Bool) (span : Span) (inside : Composed body) :
    Composed (positioned correct span body)
  | attempt {α : Type} {action : Eval W α} (inside : Composed action) : Composed (attempt action)

namespace Composed

/-- A computation that costs nothing leaves the active contexts alone. -/
theorem free {action : Eval W α} (free : action.Costs .free) : action.Composed := by
  refine .still fun state => ?_
  obtain ⟨spent, within, ⟨contexts, _, pushes, pops, maxDepth⟩, _⟩ := free state
  have scopes : spent.scopes = 0 := Nat.le_zero.mp within.scopes
  have reach : spent.reach = 0 := Nat.le_zero.mp within.reach
  rw [scopes] at pushes pops
  rw [Cost.deepest, if_pos reach] at maxDepth
  exact ⟨contexts, by simpa using pushes, by simpa using pops, maxDepth⟩

theorem pure (value : α) : (Pure.pure value : Eval W α).Composed := free fun _ => costsAt_pure value

theorem fault (fault : Fault) (span : Span) : (Eval.fault fault span : Eval W α).Composed :=
  free fun _ => costsAt_fault fault span

theorem orFault (found : Option α) (fault : Fault) (span : Span) :
    (Eval.orFault found fault span : Eval W α).Composed :=
  free fun _ => costsAt_orFault found fault span

theorem host (action : HostAction W α) : (Eval.host action).Composed := free fun _ => costsAt_host action

theorem get {next : State W → Eval W β} (after : ∀ state, (next state).Composed) :
    Composed (MonadState.get >>= next) :=
  andThen (still State.Still.refl) after

theorem map {action : Eval W α} (f : α → β) (inside : action.Composed) : Composed (f <$> action) := by
  rw [← bind_pure_comp]
  exact andThen inside fun value => pure (f value)

/-! ### Indices and methods -/

theorem key {index : Eval W TypedValue} (inside : index.Composed) : (Indexer.key index).Composed :=
  get fun state => andThen (inScope state.root inside) fun typed => pure typed.value

/-- What the application answers becomes a value, or is missed. -/
theorem answer (action : HostAction W (Option Value)) (missing : Fault) (span : Span) :
    (do
      let value ← Eval.orFault (← Eval.host action) missing span
      return (← MonadState.get).heap.typed value : Eval W TypedValue).Composed :=
  andThen (host action) fun found => andThen (orFault found missing span) fun value =>
    get fun state => pure (state.heap.typed value)

theorem values {args : List (Eval W TypedValue)} (inside : ∀ arg ∈ args, arg.Composed) :
    (Method.values args).Composed := by
  induction args with
  | nil => exact pure []
  | cons first rest ih =>
    obtain ⟨ofFirst, ofRest⟩ := List.forall_mem_cons.mp inside
    exact andThen ofFirst fun _ => andThen (ih ofRest) fun _ => pure _

section
variable [Host W]

theorem indexer {index : Eval W TypedValue} (inside : index.Composed) (span : Span) :
    (Indexer.evaluate index span).Composed := by
  refine get fun state => andThen (key inside) fun key => get fun reached => ?_
  split
  case h_7 => exact answer _ _ span
  case h_2 | h_3 | h_6 => exact orFault _ _ span
  all_goals exact fault _ span

theorem assign_indexer {index : Eval W TypedValue} (inside : index.Composed) (span : Span)
    (value : TypedValue) : (Indexer.assign index span value).Composed := by
  refine get fun state => andThen (key inside) fun key => free fun reached => costsAt_get ?_
  split
  case h_2 => exact costsAt_change _ _ span
  case h_4 => exact costsAt_change _ _ span
  case h_5 => exact costsAt_write _ _ _ _ span
  all_goals exact costsAt_fault _ span

theorem isAssignable_indexer {index : Eval W TypedValue} (inside : index.Composed) :
    (Indexer.isAssignable index).Composed := by
  refine get fun state => andThen (key inside) fun key => get fun reached => ?_
  split
  case h_3 => exact host _
  all_goals exact pure _

theorem isAssignable_property (name : String) : (Property.isAssignable name : Eval W Bool).Composed := by
  refine get fun state => ?_
  split
  · exact pure _
  · exact host _
  · exact pure false

theorem method (name : String) {args : List (Eval W TypedValue)} (inside : ∀ arg ∈ args, arg.Composed)
    (span : Span) : (Method.evaluate name args span).Composed := by
  have arguments : (Method.arguments args).Composed := by
    unfold Method.arguments
    split
    · exact pure []
    · exact get fun state => inScope state.root (values inside)
  refine get fun state => andThen arguments fun args => get fun reached => ?_
  split
  · next id _ => exact answer (Host.invoke id name args) _ span
  · dsimp only
    split
    · exact pure _
    · exact fault _ span

end

/-! ### Chains -/

theorem follow (correct : Bool) {segments : List (Node W)}
    (inside : ∀ segment ∈ segments, segment.evaluate.Composed) (value : TypedValue) :
    (Chain.follow correct segments value).Composed := by
  induction segments generalizing value with
  | nil => exact pure value
  | cons segment rest ih =>
    obtain ⟨first, others⟩ := List.forall_mem_cons.mp inside
    exact andThen (inScope value (positioned correct segment.span first)) (ih others)

theorem read (correct : Bool) {head : Node W} {middle : List (Node W)}
    (inside : ∀ segment ∈ head :: middle, segment.evaluate.Composed) :
    (Chain.read correct head middle).Composed := by
  obtain ⟨first, others⟩ := List.forall_mem_cons.mp inside
  exact andThen (positioned correct head.span first) (follow correct others)

theorem chain {head : Node W} {tail : List (Node W)}
    (inside : ∀ segment ∈ head :: tail, segment.evaluate.Composed) : (Chain.evaluate head tail).Composed := by
  unfold Chain.evaluate
  split
  · exact inside head List.mem_cons_self
  · exact read true inside

/-- Whatever is done at the last segment. -/
theorem atLast {head : Node W} {tail : List (Node W)}
    (inside : ∀ segment ∈ head :: tail, segment.evaluate.Composed) {operation : Node W → Eval W α}
    (operated : ∀ segment ∈ head :: tail, (operation segment).Composed) :
    (Chain.atLast head tail operation).Composed := by
  rcases List.eq_nil_or_concat tail with rfl | ⟨middle, last, split⟩
  · exact operated head List.mem_cons_self
  · rw [List.concat_eq_append] at split
    subst split
    rw [Chain.atLast_concat]
    refine get fun state => andThen (read _ fun segment member => inside segment ?_) fun target => ?_
    · rw [← List.cons_append]
      exact List.mem_append_left _ member
    · exact inScope target (positioned _ last.span (operated last (by simp)))

end Composed

end Eval

/-- All three operations of a node are put together in such a way. -/
structure Node.Composed (node : Node W) : Prop where
  evaluate : node.evaluate.Composed
  assign (value : TypedValue) : (node.assign value).Composed
  isAssignable : node.isAssignable.Composed

namespace Node

theorem Composed.nested {node : Node W} (inside : node.Composed) : node.nested.Composed :=
  ⟨.inNode node.span inside.evaluate, fun value => .inNode node.span (inside.assign value),
    .inNode node.span inside.isAssignable⟩

theorem composed_valueOnly (name : String) (span : Span) {evaluate : Eval W TypedValue}
    (inside : evaluate.Composed) : (valueOnly name span evaluate).Composed :=
  ⟨inside, fun _ => .fault _ span, .pure false⟩

theorem composed_chain {head : Node W} {tail : List (Node W)} (span : Span)
    (inside : ∀ segment ∈ head :: tail, segment.Composed) : (Chain.node head tail span).Composed := by
  have read (segment : Node W) (member : segment ∈ head :: tail) := (inside segment member).evaluate
  exact ⟨.chain read, fun value => .atLast read fun segment member => (inside segment member).assign value,
    .atLast read fun segment member => (inside segment member).isAssignable⟩

theorem Composed.perform {node : Node W} (inside : node.Composed) (operation : Operation) :
    (node.perform operation).Composed := by
  cases operation with
  | evaluate => exact .map _ inside.evaluate
  | assign value => exact .map _ (inside.assign value)
  | isAssignable => exact .map _ inside.isAssignable

end Node

/-- Every operation on every expression is put together in such a way. -/
theorem Expr.composed [Host W] (e : Expr) : (e.node : Node W).Composed := by
  induction e with
  | literal value span => exact (Node.composed_valueOnly _ span (.pure _)).nested
  | property name dotted span =>
    exact Node.Composed.nested ⟨.free (Eval.costs_property name span),
      fun value => .free (Eval.costs_assign_property name span value), .isAssignable_property name⟩
  | reference name span =>
    exact Node.Composed.nested ⟨.free (Eval.costs_variable name span),
      fun value => .free (Eval.costs_assign_variable name span value), .pure _⟩
  | indexer index span ih =>
    exact Node.Composed.nested ⟨.indexer ih.evaluate span, .assign_indexer ih.evaluate span,
      .isAssignable_indexer ih.evaluate⟩
  | method name args dotted span ih =>
    refine (Node.composed_valueOnly _ span (.method name (fun arg member => ?_) span)).nested
    simp only [nodes_eq_map, List.mem_map] at member
    obtain ⟨_, ⟨e, member, rfl⟩, rfl⟩ := member
    exact (ih e member).evaluate
  | assign target value span ofTarget ofValue =>
    refine (Node.composed_valueOnly _ span ?_).nested
    exact .andThen ofValue.evaluate fun result => .andThen (ofTarget.assign result) fun _ => .pure result
  | chain head tail span ofHead ofTail =>
    refine (Node.composed_chain span fun segment member => ?_).nested
    rw [nodes_eq_map, ← List.map_cons, List.mem_map] at member
    obtain ⟨e, member, rfl⟩ := member
    rcases List.mem_cons.mp member with rfl | member
    · exact ofHead
    · exact ofTail e member

end DotChain
