import DotChain.Proofs.Composition
import Mathlib.Data.List.Chain

/-!
# The stack of active contexts

A run leads the stack of active contexts through one stack after another, each of which differs from the one
before by a context that was added or removed. Main statement: `stack_accounted`, after any pushes, pops,
nested blocks and operations on expressions the counts agree with the stack, the greatest depth on record is
the greatest depth of these stacks, and a block leaves what it found below the lowest of them.
-/

namespace DotChain

variable {W α β : Type}

/-! ## Single changes -/

/-- One context was added or removed. -/
def OneApart (stack next : List TypedValue) : Prop := ∃ value, next = value :: stack ∨ stack = value :: next

/-- The stacks that are left when contexts are removed one after the other until so many are left. -/
def unwound (depth : Nat) : List TypedValue → List (List TypedValue)
  | [] => []
  | _ :: rest => if depth ≤ rest.length then rest :: unwound depth rest else []

namespace State

/-- One state leads to another by single changes of the stack, which lead to the given stacks one after the
other. -/
inductive Passes (before : State W) : List (List TypedValue) → State W → Prop where
  | refl : Passes before [] before
  | still {history : List (List TypedValue)} {middle after : State W} (earlier : Passes before history middle)
    (still : middle.Still after) : Passes before history after
  | push {history : List (List TypedValue)} {middle : State W} (value : TypedValue)
    (earlier : Passes before history middle) :
    Passes before (history ++ [value :: middle.contexts]) (middle.push value)
  | pop {history : List (List TypedValue)} {middle after : State W} {value : TypedValue}
    (earlier : Passes before history middle) (popped : middle.pop? = some (value, after)) :
    Passes before (history ++ [after.contexts]) after

namespace Passes

variable {before middle after : State W} {history more : List (List TypedValue)}

theorem trans (first : before.Passes history middle) (second : middle.Passes more after) :
    before.Passes (history ++ more) after := by
  induction second with
  | refl => rwa [List.append_nil]
  | still _ still ih => exact ih.still still
  | push value _ ih =>
    rw [← List.append_assoc]
    exact ih.push value
  | pop _ popped ih =>
    rw [← List.append_assoc]
    exact ih.pop popped

theorem ofStill (still : before.Still after) : before.Passes [] after := refl.still still

theorem ofPop {value : TypedValue} (popped : before.pop? = some (value, after)) :
    before.Passes [after.contexts] after := refl.pop popped

end Passes

/-- What is removed is the innermost context, and this is counted. -/
theorem pop?_eq_some_iff {state after : State W} {value : TypedValue} :
    state.pop? = some (value, after) ↔ ∃ rest, state.contexts = value :: rest ∧
      after = { state with
        contexts := rest
        counters := { state.counters with pops := state.counters.pops + 1 } } := by
  unfold pop?
  cases state.contexts with
  | nil => simp
  | cons first rest =>
    simp only [Option.some.injEq, Prod.mk.injEq, List.cons.injEq]
    constructor
    · rintro ⟨rfl, rfl⟩
      exact ⟨rest, ⟨rfl, rfl⟩, rfl⟩
    · rintro ⟨_, ⟨rfl, rfl⟩, rfl⟩
      exact ⟨rfl, rfl⟩

/-- A cut below a context that was removed is one that removes one context less. -/
theorem cut_pop {state after : State W} {value : TypedValue} {depth : Nat}
    (popped : state.pop? = some (value, after)) (above : depth ≤ after.contexts.length) :
    after.cut depth = state.cut depth := by
  obtain ⟨rest, contexts, rfl⟩ := pop?_eq_some_iff.mp popped
  have excess : (value :: rest).length - depth = rest.length - depth + 1 := Nat.succ_sub above
  simp only [cut, contexts, excess, List.drop_succ_cons, ← Charged.count_succ]

theorem still_cut {state : State W} {depth : Nat} (low : state.contexts.length ≤ depth) :
    state.Still (state.cut depth) := by
  have none : state.contexts.length - depth = 0 := Nat.sub_eq_zero_of_le low
  refine ⟨?_, rfl, ?_, rfl⟩
  · rw [cut, none]
    rfl
  · rw [cut, none]
    exact UInt64.add_zero _

/-- A cut removes contexts one after the other. -/
theorem passes_cut (state : State W) (depth : Nat) :
    state.Passes (unwound depth state.contexts) (state.cut depth) := by
  generalize contexts : state.contexts = stack
  induction stack generalizing state with
  | nil =>
    refine .ofStill (still_cut ?_)
    rw [contexts]
    exact Nat.zero_le depth
  | cons value rest ih =>
    unfold unwound
    split
    · next above =>
      have popped := pop?_eq_some_iff.mpr ⟨rest, contexts, rfl⟩
      rw [← cut_pop popped above]
      exact (Passes.ofPop popped).trans (ih _ rfl)
    · next below =>
      refine .ofStill (still_cut ?_)
      rw [contexts, List.length_cons]
      omega

/-- Inside a scope the stack begins with one context more, and at its end those above are removed. -/
theorem Passes.scope {state final : State W} {history : List (List TypedValue)} (value : TypedValue)
    (inside : (state.push value).Passes history final) :
    state.Passes ((value :: state.contexts) :: (history ++ unwound state.contexts.length final.contexts))
      (final.cut state.contexts.length) :=
  (Passes.refl.push value).trans (inside.trans (passes_cut final state.contexts.length))

/-! ## What single changes keep -/

/-- The contexts that were added are those that were removed and those that are left. The counts wrap. -/
def Accounted (state : State W) : Prop :=
  state.counters.pushes = state.counters.pops + .ofNat state.contexts.length

/-- The depth on record is the greatest depth of some stacks, or was on record before. -/
structure Tops (before after : State W) (history : List (List TypedValue)) : Prop where
  recorded : after.Recorded
  grown : before.counters.maxDepth ≤ after.counters.maxDepth
  bound : ∀ stack ∈ history, stack.length ≤ after.counters.maxDepth
  attained : after.counters.maxDepth = before.counters.maxDepth ∨
    ∃ stack ∈ history, stack.length = after.counters.maxDepth

namespace Passes

variable {before after : State W} {history : List (List TypedValue)}

/-- The stacks stand one step apart, from the first state up to the last. -/
theorem walks (passes : before.Passes history after) :
    (before.contexts :: history).IsChain OneApart ∧
      (before.contexts :: history).getLast? = some after.contexts := by
  have onwards {history : List (List TypedValue)} {stack next : List TypedValue} (apart : OneApart stack next)
      (walks : (before.contexts :: history).IsChain OneApart ∧
        (before.contexts :: history).getLast? = some stack) :
      (before.contexts :: (history ++ [next])).IsChain OneApart ∧
        (before.contexts :: (history ++ [next])).getLast? = some next := by
    rw [← List.cons_append, List.isChain_append]
    refine ⟨⟨walks.1, .singleton next, ?_⟩, List.getLast?_concat⟩
    rw [walks.2]
    rintro _ ⟨⟩ _ ⟨⟩
    exact apart
  induction passes with
  | refl => exact ⟨.singleton _, rfl⟩
  | still _ still ih =>
    rw [still.contexts]
    exact ih
  | push value _ ih => exact onwards ⟨value, .inl rfl⟩ ih
  | @pop _ _ _ value _ popped ih =>
    obtain ⟨rest, contexts, rfl⟩ := pop?_eq_some_iff.mp popped
    exact onwards ⟨value, .inr contexts⟩ ih

theorem accounted (passes : before.Passes history after) (accounted : before.Accounted) : after.Accounted := by
  induction passes with
  | refl => exact accounted
  | still _ still ih =>
    rw [Accounted, still.pushes, still.pops, still.contexts]
    exact ih
  | @push history middle value _ ih =>
    change middle.counters.pushes + 1 = middle.counters.pops + .ofNat (middle.contexts.length + 1)
    rw [ih, UInt64.add_assoc, UInt64.add_comm (.ofNat _), ← UInt64.add_assoc]
    exact Charged.count_succ _ _
  | pop _ popped ih =>
    obtain ⟨rest, contexts, rfl⟩ := pop?_eq_some_iff.mp popped
    rw [Accounted, contexts, List.length_cons, ← Charged.count_succ] at ih
    exact ih

private theorem seen_later {history : List (List TypedValue)} {depth : Nat} (more : List (List TypedValue))
    (seen : ∃ stack ∈ history, stack.length = depth) : ∃ stack ∈ history ++ more, stack.length = depth := by
  obtain ⟨stack, member, same⟩ := seen
  exact ⟨stack, List.mem_append_left more member, same⟩

theorem tops (passes : before.Passes history after) (recorded : before.Recorded) :
    before.Tops after history := by
  induction passes with
  | refl => exact ⟨recorded, Nat.le_refl _, fun _ member => absurd member List.not_mem_nil, .inl rfl⟩
  | still _ still ih =>
    obtain ⟨recorded, grown, bound, attained⟩ := ih
    rw [← still.maxDepth] at grown bound attained
    refine ⟨?_, grown, bound, attained⟩
    rw [Recorded, still.maxDepth, still.contexts]
    exact recorded
  | @push history middle value _ ih =>
    obtain ⟨recorded, grown, bound, attained⟩ := ih
    have record : (middle.push value).counters.maxDepth =
        max middle.counters.maxDepth (middle.contexts.length + 1) := rfl
    refine ⟨middle.recorded_push value, Nat.le_trans grown (Nat.le_max_left ..), ?_, ?_⟩
    · refine List.forall_mem_append.mpr ⟨fun stack member => ?_, List.forall_mem_singleton.mpr ?_⟩
      · exact Nat.le_trans (bound stack member) (Nat.le_max_left ..)
      · exact Nat.le_max_right ..
    · rcases Nat.le_total (middle.contexts.length + 1) middle.counters.maxDepth with low | high
      · rw [record, Nat.max_eq_left low]
        exact attained.imp_right (seen_later _)
      · rw [record, Nat.max_eq_right high]
        exact .inr ⟨value :: middle.contexts, by simp, rfl⟩
  | pop _ popped ih =>
    obtain ⟨recorded, grown, bound, attained⟩ := ih
    have less := recorded_pop? recorded popped
    obtain ⟨rest, contexts, rfl⟩ := pop?_eq_some_iff.mp popped
    refine ⟨less, grown, ?_, ?_⟩
    · exact List.forall_mem_append.mpr ⟨bound, List.forall_mem_singleton.mpr less⟩
    · exact attained.imp_right (seen_later _)

/-- What the stack never falls below stays. -/
theorem keeps {older : List TypedValue} (passes : before.Passes history after)
    (below : older <:+ before.contexts) (above : ∀ stack ∈ history, older.length ≤ stack.length) :
    (∀ stack ∈ history, older <:+ stack) ∧ older <:+ after.contexts := by
  induction passes with
  | refl => exact ⟨fun _ member => absurd member List.not_mem_nil, below⟩
  | still _ still ih =>
    rw [still.contexts]
    exact ih above
  | push value _ ih =>
    obtain ⟨earlier, last⟩ := List.forall_mem_append.mp above
    obtain ⟨kept, here⟩ := ih earlier
    have there := here.trans (List.suffix_cons value _)
    exact ⟨List.forall_mem_append.mpr ⟨kept, List.forall_mem_singleton.mpr there⟩, there⟩
  | pop _ popped ih =>
    obtain ⟨earlier, last⟩ := List.forall_mem_append.mp above
    obtain ⟨kept, here⟩ := ih earlier
    obtain ⟨rest, contexts, rfl⟩ := pop?_eq_some_iff.mp popped
    have there : older <:+ rest := by
      rw [contexts] at here
      rcases List.suffix_cons_iff.mp here with whole | part
      · have enough : older.length ≤ rest.length := last rest (List.mem_singleton_self rest)
        rw [whole, List.length_cons] at enough
        omega
      · exact part
    exact ⟨List.forall_mem_append.mpr ⟨kept, List.forall_mem_singleton.mpr there⟩, there⟩

end Passes

end State

/-! ## The stacks of a run -/

namespace Eval

/-- A computation that starts in a state leads the stack of active contexts through the given stacks, one
after the other. What is put together from other computations leads it through their stacks. -/
inductive Through : {α : Type} → Eval W α → State W → List (List TypedValue) → Prop where
  | still {α : Type} {action : Eval W α} {state : State W} (still : state.Still (action.outcome state).2) :
    Through action state []
  | push (value : TypedValue) (state : State W) :
    Through (modify (·.push value) : Eval W PUnit) state [value :: state.contexts]
  | pop {state after : State W} {value : TypedValue} (popped : state.pop? = some (value, after)) :
    Through popContext state [after.contexts]
  | andThen {α β : Type} {first : Eval W α} {next : α → Eval W β} {state reached : State W} {value : α}
    {history more : List (List TypedValue)} (run : first.outcome state = (.ok value, reached))
    (before : Through first state history) (after : Through (next value) reached more) :
    Through (first >>= next) state (history ++ more)
  | stopped {α β : Type} {first : Eval W α} {next : α → Eval W β} {state reached : State W}
    {failure : Failure} {history : List (List TypedValue)}
    (run : first.outcome state = (.error failure, reached)) (before : Through first state history) :
    Through (first >>= next) state history
  | inScope {α : Type} {body : Eval W α} {state : State W} {value : TypedValue}
    {history : List (List TypedValue)} (inside : Through body (state.push value) history) :
    Through (inScope value body) state ((value :: state.contexts) ::
      (history ++ unwound state.contexts.length (body.outcome (state.push value)).2.contexts))
  | inNode {α : Type} {body : Eval W α} {state : State W} {span : Span} {history : List (List TypedValue)}
    (entered : state.exhausted? = none) (inside : Through body state.enter history) :
    Through (inNode span body) state history
  | positioned {α : Type} {body : Eval W α} {state : State W} {correct : Bool} {span : Span}
    {history : List (List TypedValue)} (inside : Through body state history) :
    Through (positioned correct span body) state history
  | attempt {α : Type} {action : Eval W α} {state : State W} {history : List (List TypedValue)}
    (inside : Through action state history) : Through (attempt action) state history

/-- The stacks of a run lead from the state in which it starts to the one that it leaves. -/
theorem Through.passes {action : Eval W α} {state : State W} {history : List (List TypedValue)}
    (through : action.Through state history) : state.Passes history (action.outcome state).2 := by
  induction through with
  | still still => exact .ofStill still
  | push value state => exact State.Passes.refl.push value
  | @pop state after value popped =>
    have run : popContext.outcome state = (.ok value, after) := by
      rw [popContext, outcome_mk, popped]
    rw [run]
    exact .ofPop popped
  | andThen run _ _ ihBefore ihAfter =>
    rw [run] at ihBefore
    rw [outcome_bind, run]
    exact ihBefore.trans ihAfter
  | stopped run _ ih =>
    rw [run] at ih
    rw [outcome_bind, run]
    exact ih
  | inScope _ ih => exact ih.scope
  | @inNode α body state span history entered _ ih =>
    rw [outcome_inNode, entered]
    have inside := (State.Passes.ofStill state.still_enter).trans ih
    exact inside.still (State.still_leave _)
  | positioned _ ih =>
    rw [outcome_positioned]
    exact ih
  | attempt _ ih => exact ih

/-- Every run of a computation that is put together from steps and single changes has stacks. -/
theorem Composed.through {action : Eval W α} (composed : action.Composed) :
    ∀ state, ∃ history, action.Through state history := by
  induction composed with
  | still still => exact fun state => ⟨[], .still (still state)⟩
  | push value => exact fun state => ⟨_, .push value state⟩
  | pop =>
    intro state
    cases popped : state.pop? with
    | none =>
      refine ⟨[], .still ?_⟩
      rw [popContext, outcome_mk, popped]
      exact .refl state
    | some pair => exact ⟨_, .pop popped⟩
  | @andThen α β first next _ _ ihBefore ihAfter =>
    intro state
    obtain ⟨history, before⟩ := ihBefore state
    rcases run : first.outcome state with ⟨failure | value, reached⟩
    · exact ⟨history, .stopped run before⟩
    · obtain ⟨more, after⟩ := ihAfter value reached
      exact ⟨history ++ more, .andThen run before after⟩
  | inScope value _ ih =>
    intro state
    obtain ⟨history, inside⟩ := ih (state.push value)
    exact ⟨_, .inScope inside⟩
  | @inNode α body span _ ih =>
    intro state
    cases entered : state.exhausted? with
    | none =>
      obtain ⟨history, inside⟩ := ih state.enter
      exact ⟨history, .inNode entered inside⟩
    | some limit =>
      refine ⟨[], .still ?_⟩
      rw [outcome_inNode, entered]
      exact .refl state
  | positioned correct span _ ih =>
    intro state
    obtain ⟨history, inside⟩ := ih state
    exact ⟨history, .positioned inside⟩
  | attempt _ ih =>
    intro state
    obtain ⟨history, inside⟩ := ih state
    exact ⟨history, .attempt inside⟩

end Eval

/-! ## Programs -/

/-- What may be done with a state, one thing after the other. -/
inductive Program (W : Type) where
  | done
  | push (value : TypedValue) (rest : Program W)
  | pop (rest : Program W)
  /-- A block with a context of its own. -/
  | scope (value : TypedValue) (body rest : Program W)
  /-- An operation of a node. Every expression is such a node (`Expr.composed`), and so is every chain of such
  nodes (`Node.composed_chain`). -/
  | perform (operation : Operation) {node : Node W} (composed : node.Composed) (rest : Program W)

namespace Program

/-- Does what a program says. What fails does not keep the rest from being done. -/
def run : Program W → Eval W Unit
  | done => pure ()
  | push value rest => do
    modify (·.push value)
    rest.run
  | pop rest => do
    Eval.attempt Eval.popContext
    rest.run
  | scope value body rest => do
    Eval.inScope value body.run
    rest.run
  | @perform _ operation node _ rest => do
    Eval.attempt (node.perform operation)
    rest.run

theorem composed (program : Program W) : program.run.Composed := by
  induction program with
  | done => exact .pure ()
  | push value rest ih => exact .andThen (.push value) fun _ => ih
  | pop rest ih => exact .andThen (.attempt .pop) fun _ => ih
  | scope value body rest ihBody ih => exact .andThen (.inScope value ihBody) fun _ => ih
  | perform operation composed rest ih => exact .andThen (.attempt (composed.perform operation)) fun _ => ih

end Program

/-- Taking from an empty stack is refused and changes nothing. -/
theorem popContext_empty {state : State W} (empty : state.contexts = []) :
    Eval.popContext.outcome state = (.error (.host .contextUnderflow), state) := by
  have nothing : state.pop? = none := by rw [State.pop?, empty]
  rw [Eval.popContext, Eval.outcome_mk, nothing]

/-- A block ends with what its body has left of the stack, cut to the depth at which it began. What the stack
has never fallen below inside the body was not touched. -/
theorem scope_keeps {body : Eval W α} {value : TypedValue} {state : State W}
    {history : List (List TypedValue)} (through : body.Through (state.push value) history)
    {older : List TypedValue} (below : older <:+ state.contexts)
    (above : ∀ stack ∈ history, older.length ≤ stack.length) :
    (∀ stack ∈ history, older <:+ stack) ∧
    older <:+ ((Eval.inScope value body).outcome state).2.contexts := by
  obtain ⟨kept, here⟩ := through.passes.keeps (below.trans (List.suffix_cons value _)) above
  refine ⟨kept, ?_⟩
  have depth := below.length_le
  obtain ⟨newer, split⟩ := here
  rw [Eval.outcome_inScope, State.cut, ← split, List.drop_append_of_le_length]
  · exact List.suffix_append _ older
  · rw [List.length_append]
    omega

/-- Whatever a program does with a fresh state, the stack is accounted for: as many contexts were added as
were removed and are left; the greatest depth on record is the greatest that the stack has had; an empty stack
is left alone. A block, whatever is done in it, ends with the stack of its body cut to the depth at which it
began. In the midst of a block the state is one to which a program leads that adds the context of the block
and ends there. -/
theorem stack_accounted (root : TypedValue) (bindings : Table TypedValue) (config : Config)
    (store : Store W) (program : Program W) :
    let fresh : State W := { State.initial root config store with bindings := bindings }
    let reached := (program.run.outcome fresh).2
    reached.counters.pushes = reached.counters.pops + .ofNat reached.contexts.length ∧
    (∃ history, program.run.Through fresh history) ∧
    (∀ history, program.run.Through fresh history →
      ([] :: history).IsChain OneApart ∧ ([] :: history).getLast? = some reached.contexts ∧
      (∀ stack ∈ [] :: history, stack.length ≤ reached.counters.maxDepth) ∧
      ∃ stack ∈ [] :: history, stack.length = reached.counters.maxDepth) ∧
    (reached.contexts = [] →
      Eval.popContext.outcome reached = (.error (.host .contextUnderflow), reached)) ∧
    ∀ (value : TypedValue) (body : Program W),
      let ended := (body.run.outcome (reached.push value)).2
      let left := ((Eval.inScope value body.run).outcome reached).2
      left.contexts = ended.contexts.drop (ended.contexts.length - reached.contexts.length) ∧
      (∃ history, body.run.Through (reached.push value) history) ∧
      ∀ history, body.run.Through (reached.push value) history → ∀ older, older <:+ reached.contexts →
        (∀ stack ∈ history, older.length ≤ stack.length) →
        (∀ stack ∈ history, older <:+ stack) ∧ older <:+ left.contexts := by
  intro fresh reached
  have traced := program.composed.through fresh
  have passes {history : List (List TypedValue)} (through : program.run.Through fresh history) :
      fresh.Passes history reached := through.passes
  refine ⟨?_, traced, fun history through => ?_, popContext_empty, fun value body => ?_⟩
  · obtain ⟨history, through⟩ := traced
    exact (passes through).accounted rfl
  · obtain ⟨chain, last⟩ := (passes through).walks
    obtain ⟨recorded, grown, bound, attained⟩ := (passes through).tops (Nat.le_refl 0)
    refine ⟨chain, last, List.forall_mem_cons.mpr ⟨Nat.zero_le _, bound⟩, ?_⟩
    rcases attained with none | ⟨stack, member, deepest⟩
    · exact ⟨[], List.mem_cons_self, none.symm⟩
    · exact ⟨stack, List.mem_cons_of_mem _ member, deepest⟩
  · exact ⟨rfl, body.composed.through _, fun history through older below above =>
      scope_keeps through below above⟩

/-- `#n = [0].length`. -/
private def measuring : Expr :=
  .assign (.reference "n" ⟨0, 2⟩)
    (.chain (.indexer (.literal (.int 0) ⟨6, 7⟩) ⟨5, 8⟩) [.property "length" true ⟨9, 15⟩] ⟨5, 15⟩) ⟨0, 15⟩

/-- In a block on a list an expression is evaluated, whose index and last segment are read in contexts of their
own above that of the block. -/
private def measured : Program Unit :=
  .scope ⟨.list ⟨0⟩, .list⟩ (.perform .evaluate (Expr.composed measuring) .done) .done

/-- A state with a list of one text. -/
private def oneText : State Unit := .initial .null .standard ⟨⟨#[[.text "chain"]], #[], #[]⟩, ()⟩

/-- The expression adds two contexts and removes them, and the stack has been two contexts high. -/
theorem stack_accounted_expression :
    let reached := (measured.run.outcome oneText).2
    reached.bindings.get? "n" = some ⟨.int 5, .int⟩ ∧ reached.contexts = [] ∧
    reached.counters.pushes = 3 ∧ reached.counters.pops = 3 ∧
    ∃ history, measured.run.Through oneText history ∧ ∃ stack ∈ [] :: history, stack.length = 2 := by
  intro reached
  obtain ⟨accounted, ⟨history, through⟩, highest, -⟩ :=
    stack_accounted .null .empty .standard ⟨⟨#[[.text "chain"]], #[], #[]⟩, ()⟩ measured
  have added : reached.counters.pushes = 3 := rfl
  refine ⟨rfl, rfl, added, ?_, history, through, ?_⟩
  · exact (UInt64.add_zero _).symm.trans (accounted.symm.trans added)
  · obtain ⟨-, -, -, stack, member, depth⟩ := highest history through
    exact ⟨stack, member, depth⟩

/-- The body of the block removes a context that it has not added. -/
example :
    let typed (i : Int64) : TypedValue := ⟨.int i, .int⟩
    let body : Program Unit := .pop (.pop (.push (typed 4) .done))
    let program : Program Unit := .push (typed 1) (.push (typed 2) (.scope (typed 3) body .done))
    let reached := (program.run.outcome (.initial (typed 0) .standard ⟨⟨#[], #[], #[]⟩, ()⟩)).2
    reached.contexts = [typed 4, typed 1] ∧ reached.counters = ⟨0, 4, 2, 3⟩ := ⟨rfl, rfl⟩

end DotChain
