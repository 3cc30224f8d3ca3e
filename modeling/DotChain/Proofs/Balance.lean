import DotChain.Proofs.Law

/-!
# Balance

Operations on expressions add active contexts and nest nodes, and leave early wherever something
fails. Only the scopes restore the state. Main statement: `run_balanced`, after any operation and on
any way out the active contexts, the depth, the root and the configuration are as they were, and as
many contexts were removed as were added. An underflow of the active contexts comes from the
application alone.
-/

namespace DotChain

variable {W : Type}

/-- An operation that the application offers has failed and left a store. -/
def Host.Raised [Host W] (error : HostError) (left : Store W) : Prop :=
  ∃ (α : Type) (action : HostAction W α) (before : Store W),
    action.Call ∧ action.outcome before = (.error error, left)

/-- What is the same in a state and in a later one, and how far the counts of contexts have grown. The
counts wrap. -/
structure State.Balanced (before after : State W) : Prop where
  contexts : after.contexts = before.contexts
  depth : after.depth = before.depth
  root : after.root = before.root
  config : after.config = before.config
  counts : after.counters.pushes - before.counters.pushes =
    after.counters.pops - before.counters.pops

/-- A run ends in a state that balances the one in which it began. If it reports an underflow, the
application has failed with just that, and nothing was done to the store since. -/
structure State.Restored [Host W] {α : Type} (before : State W)
    (run : Except Failure α × State W) : Prop where
  balanced : before.Balanced run.2
  underflow : run.1 = .error (.host .contextUnderflow) →
    Host.Raised .contextUnderflow run.2.store

namespace State.Balanced

theorem refl (state : State W) : state.Balanced state :=
  ⟨rfl, rfl, rfl, rfl, by rw [UInt64.sub_self, UInt64.sub_self]⟩

/-- Growth adds up, also where the counts wrap. -/
private theorem growth_add {a b c x y z : UInt64} (first : b - a = y - x) (second : c - b = z - y) :
    c - a = z - x := by
  have whole : c - a = (c - b) + (b - a) := by grind
  rw [whole, first, second]
  grind

theorem trans {before middle after : State W} (first : before.Balanced middle)
    (second : middle.Balanced after) : before.Balanced after :=
  ⟨second.contexts.trans first.contexts, second.depth.trans first.depth,
    second.root.trans first.root, second.config.trans first.config,
    growth_add first.counts second.counts⟩

/-- A body that is balanced leaves exactly its own context, which the end of the scope removes. -/
theorem scope {state final : State W} (value : TypedValue)
    (inside : (state.push value).Balanced final) :
    state.Balanced (final.cut state.contexts.length) := by
  obtain ⟨contexts, depth, root, config, counts⟩ := inside
  have added : final.contexts = [value] ++ state.contexts := contexts
  refine ⟨State.contexts_cut final [value] state.contexts added, depth, root, config, ?_⟩
  have removed : (final.cut state.contexts.length).counters.pops = final.counters.pops + 1 :=
    State.pops_cut final [value] state.contexts added
  have grown : final.counters.pushes - (state.counters.pushes + 1) =
      final.counters.pops - state.counters.pops := counts
  rw [removed]
  change final.counters.pushes - state.counters.pushes = _
  grind

theorem node {state final : State W} (inside : state.enter.Balanced final) :
    state.Balanced final.leave := by
  obtain ⟨contexts, depth, root, config, counts⟩ := inside
  refine ⟨contexts, ?_, root, config, counts⟩
  change final.depth - 1 = state.depth
  rw [depth]
  exact Nat.add_sub_cancel ..

end State.Balanced

/-- The law of balance. The application is to blame for every failure that is no error of the
expression. -/
def Law.balance (W : Type) [Host W] : Law W where
  leads := State.Balanced
  fails failure state := ∀ error, failure = .host error → Host.Raised error state.store

private theorem fails_movedTo {failure : Failure} {span : Span} {error : HostError}
    (same : failure.movedTo span = .host error) : failure = .host error := by
  cases failure with
  | eval cause => cases same
  | host cause => exact same

/-- Every step keeps to the balance. -/
theorem Law.balance_writing [Host W] : (Law.balance W).Writing where
  refl := State.Balanced.refl
  trans := State.Balanced.trans
  scope := State.Balanced.scope
  node := State.Balanced.node
  query _ state := ⟨rfl, rfl, rfl, rfl, (State.Balanced.refl state).counts⟩
  fault _ _ _ error same := by cases same
  moved _ fails error same := fails error (fails_movedTo same)
  failed_scope _ fails := fails
  failed_node fails := fails
  failed_call {α action} called error state failed other same := by
    obtain rfl := Failure.host.inj same
    exact ⟨α, action, state.store, called, Prod.ext failed rfl⟩
  bind state _ _ := ⟨rfl, rfl, rfl, rfl, (State.Balanced.refl state).counts⟩
  replace {state} _ _ _ _ _ := ⟨rfl, rfl, rfl, rfl, (State.Balanced.refl state).counts⟩
  write {state} _ _ _ _ _ := ⟨rfl, rfl, rfl, rfl, (State.Balanced.refl state).counts⟩
  host_write _ _ _ state := ⟨rfl, rfl, rfl, rfl, (State.Balanced.refl state).counts⟩

private theorem restored_of_kept [Host W] {α : Type} {action : Eval W α}
    (kept : (Law.balance W).Kept action) (state : State W) :
    state.Restored (action.outcome state) :=
  ⟨(kept state).leads, fun failed => (kept state).fails failed _ rfl⟩

theorem Expr.balanced_evaluate [Host W] {e : Expr} {state final : State W}
    {result : Except Failure TypedValue} (run : e.evaluate.outcome state = (result, final)) :
    state.Balanced final := by
  have leads := ((e.keeps (Law.balance_writing (W := W))).evaluate state).leads
  change state.Balanced (e.evaluate.outcome state).2 at leads
  rwa [run] at leads

theorem Expr.balanced_store [Host W] {e : Expr} {value : TypedValue} {state final : State W}
    {result : Except Failure Unit} (run : (e.store value).outcome state = (result, final)) :
    state.Balanced final := by
  have leads := ((e.keeps (Law.balance_writing (W := W))).assign value state).leads
  change state.Balanced ((e.store value).outcome state).2 at leads
  rwa [run] at leads

theorem Expr.balanced_read [Host W] {head : Expr} {middle : List Expr} {correct : Bool}
    {state final : State W} {result : Except Failure TypedValue}
    (run : (Chain.read correct head.node (middle.map node)).outcome state = (result, final)) :
    state.Balanced final := by
  have reads := Law.balance_writing (W := W).toReading
  have segments : ∀ segment ∈ middle.map (node (W := W)), (Law.balance W).ReadBy segment := by
    rw [List.forall_mem_map]
    exact fun e _ => (e.keeps Law.balance_writing).toReadBy
  have leads := (Law.kept_read reads correct (head.keeps Law.balance_writing).toReadBy segments state).leads
  change state.Balanced ((Chain.read correct head.node (middle.map node)).outcome state).2 at leads
  rwa [run] at leads

/-- Whatever operation is run on an expression, in whatever state and however it ends, the state is
restored. -/
theorem run_balanced [Host W] (e : Expr) (value : TypedValue) (state : State W) :
    state.Restored (e.evaluate.outcome state) ∧
    state.Restored ((e.store value).outcome state) ∧
    state.Restored (e.isAssignable.outcome state) := by
  have kept := e.keeps (Law.balance_writing (W := W))
  exact ⟨restored_of_kept kept.evaluate state, restored_of_kept (kept.assign value) state,
    restored_of_kept kept.isAssignable state⟩

end DotChain
