import DotChain.Proofs.Coupling

/-!
# What is seen of the active contexts

An expression sees the innermost of the active contexts and none of those below; the keys of indices and the
arguments of methods do not even see that one. Main statement: `top_alone_is_seen`, two runs of the same
operation from states that differ in nothing but what is not seen have the same result and do the same.

The two runs are coupled by what they have done since they began (`Coupling.beside`): on top of the contexts
from the start, which may be any, they always have the same.
-/

namespace DotChain

variable {W α : Type}

/-- Two states differ at most in their active contexts and in what was counted. -/
structure State.SameSetting (first second : State W) : Prop where
  root : first.root = second.root
  bindings : first.bindings = second.bindings
  store : first.store = second.store
  config : first.config = second.config
  depth : first.depth = second.depth

/-- What two runs have come to, each from a state of its own: the same setting with the root from the start,
the same contexts on top of those from the start, and counts that have grown by the same. The counts wrap. -/
structure State.Beside (start start' reached reached' : State W) : Prop
    extends reached.SameSetting reached' where
  kept : reached.root = start.root
  kept' : reached'.root = start'.root
  contexts : ∃ newer, reached.contexts = newer ++ start.contexts ∧
    reached'.contexts = newer ++ start'.contexts
  nodes : reached.counters.nodes - start.counters.nodes =
    reached'.counters.nodes - start'.counters.nodes
  pushes : reached.counters.pushes - start.counters.pushes =
    reached'.counters.pushes - start'.counters.pushes
  pops : reached.counters.pops - start.counters.pops =
    reached'.counters.pops - start'.counters.pops

/-- Two runs have the same result, be it a value or a failure, and have done the same. -/
structure RunsInStep (start start' : State W) (run run' : Except Failure α × State W) : Prop where
  result : run.1 = run'.1
  reached : start.Beside start' run.2 run'.2

/-! ## Steps -/

namespace State

/-- Cutting down to a number of contexts above given ones leaves the oldest of those above. -/
theorem contexts_cut_above {state : State W} {newer older : List TypedValue}
    (split : state.contexts = newer ++ older) (count : Nat) :
    (state.cut (count + older.length)).contexts = newer.drop (newer.length - count) ++ older := by
  have excess : (newer ++ older).length - (count + older.length) = newer.length - count := by
    rw [List.length_append]
    omega
  change state.contexts.drop (state.contexts.length - (count + older.length)) = _
  rw [split, excess]
  exact List.drop_append_of_le_length (Nat.sub_le _ _)

theorem pops_cut_above {state : State W} {newer older : List TypedValue}
    (split : state.contexts = newer ++ older) (count : Nat) :
    (state.cut (count + older.length)).counters.pops =
      state.counters.pops + UInt64.ofNat (newer.length - count) := by
  have excess : (newer ++ older).length - (count + older.length) = newer.length - count := by
    rw [List.length_append]
    omega
  change state.counters.pops + UInt64.ofNat (state.contexts.length - (count + older.length)) = _
  rw [split, excess]

end State

namespace State.Beside

variable {start start' s t s' t' : State W}

theorem refl (same : start.SameSetting start') : start.Beside start' start start' where
  toSameSetting := same
  kept := rfl
  kept' := rfl
  contexts := ⟨[], rfl, rfl⟩
  nodes := by rw [UInt64.sub_self, UInt64.sub_self]
  pushes := by rw [UInt64.sub_self, UInt64.sub_self]
  pops := by rw [UInt64.sub_self, UInt64.sub_self]

/-- Counts that have grown by the same still have when both grow further by the same. -/
private theorem growth_step {a b x y : UInt64} (more : UInt64) (same : a - x = b - y) :
    a + more - x = b + more - y := by
  have left : a + more - x = a - x + more := by grind
  have right : b + more - y = b - y + more := by grind
  rw [left, right, same]

/-- Where the innermost contexts were the same at the start, they still are. -/
theorem agree (top : start.current = start'.current) (beside : start.Beside start' s t) :
    s.Agree t where
  current := by
    obtain ⟨newer, contexts, contexts'⟩ := beside.contexts
    unfold State.current at top ⊢
    rw [contexts, contexts', beside.kept, beside.kept']
    cases newer with
    | nil => exact top
    | cons value newer => rfl
  root := beside.root
  bindings := beside.bindings
  store := beside.store

theorem push (beside : start.Beside start' s t) (value : TypedValue) :
    start.Beside start' (s.push value) (t.push value) := by
  obtain ⟨⟨root, bindings, store, config, depth⟩, kept, kept', ⟨newer, contexts, contexts'⟩, nodes,
    pushes, pops⟩ := beside
  refine ⟨⟨root, bindings, store, config, depth⟩, kept, kept', ⟨value :: newer, ?_, ?_⟩, nodes,
    growth_step 1 pushes, pops⟩
  · exact congrArg (value :: ·) contexts
  · exact congrArg (value :: ·) contexts'

/-- Both cut down to where they were at an earlier time. -/
theorem cut (before : start.Beside start' s t) (beside : start.Beside start' s' t') :
    start.Beside start' (s'.cut s.contexts.length) (t'.cut t.contexts.length) := by
  obtain ⟨older, contexts, contexts'⟩ := before.contexts
  obtain ⟨⟨root, bindings, store, config, depth⟩, kept, kept', ⟨newer, split, split'⟩, nodes, pushes,
    pops⟩ := beside
  rw [contexts, contexts', List.length_append, List.length_append]
  refine ⟨⟨root, bindings, store, config, depth⟩, kept, kept',
    ⟨newer.drop (newer.length - older.length), ?_, ?_⟩, nodes, pushes, ?_⟩
  · exact State.contexts_cut_above split older.length
  · exact State.contexts_cut_above split' older.length
  · rw [State.pops_cut_above split, State.pops_cut_above split']
    exact growth_step _ pops

theorem enter (beside : start.Beside start' s t) : start.Beside start' s.enter t.enter := by
  obtain ⟨⟨root, bindings, store, config, depth⟩, kept, kept', contexts, nodes, pushes, pops⟩ := beside
  exact ⟨⟨root, bindings, store, config, congrArg (· + 1) depth⟩, kept, kept', contexts,
    growth_step 1 nodes, pushes, pops⟩

theorem leave (beside : start.Beside start' s t) : start.Beside start' s.leave t.leave := by
  obtain ⟨⟨root, bindings, store, config, depth⟩, kept, kept', contexts, nodes, pushes, pops⟩ := beside
  exact ⟨⟨root, bindings, store, config, congrArg (· - 1) depth⟩, kept, kept', contexts, nodes, pushes,
    pops⟩

theorem bind (beside : start.Beside start' s t) (name : String) (value : TypedValue) :
    start.Beside start' (s.bind name value) (t.bind name value) := by
  obtain ⟨⟨root, bindings, store, config, depth⟩, kept, kept', contexts, nodes, pushes, pops⟩ := beside
  exact ⟨⟨root, congrArg (·.insert name value) bindings, store, config, depth⟩, kept, kept', contexts,
    nodes, pushes, pops⟩

theorem withStore (beside : start.Beside start' s t) (store : Store W) :
    start.Beside start' { s with store := store } { t with store := store } := by
  obtain ⟨⟨root, bindings, _, config, depth⟩, kept, kept', contexts, nodes, pushes, pops⟩ := beside
  exact ⟨⟨root, bindings, rfl, config, depth⟩, kept, kept', contexts, nodes, pushes, pops⟩

/-- Runs that began with one more context, made the same for both, began with the others. -/
theorem of_push {value : TypedValue} (beside : (start.push value).Beside (start'.push value) s t) :
    start.Beside start' s t := by
  obtain ⟨same, kept, kept', ⟨newer, contexts, contexts'⟩, nodes, pushes, pops⟩ := beside
  refine ⟨same, kept, kept', ⟨newer ++ [value], ?_, ?_⟩, nodes, ?_, pops⟩
  · rw [contexts, List.append_assoc]
    rfl
  · rw [contexts', List.append_assoc]
    rfl
  · have grown : s.counters.pushes - (start.counters.pushes + 1) =
      t.counters.pushes - (start'.counters.pushes + 1) := pushes
    grind

end State.Beside

/-! ## The coupling -/

/-- Two runs that have come to the same, each from a state of its own. -/
def Coupling.beside (start start' : State W) : Coupling W where
  states level s t := s.depth = level ∧ start.Beside start' s t
  failures := Eq
  places := Eq

theorem Coupling.beside_stepwise [Host W] {start start' : State W}
    (top : start.current = start'.current) : (Coupling.beside start start').Stepwise where
  agree := fun ⟨_, beside⟩ => beside.agree top
  push value := fun ⟨deep, beside⟩ => ⟨deep, beside.push value⟩
  cut := fun ⟨_, before⟩ ⟨deep, beside⟩ => ⟨deep, before.cut beside⟩
  enter := by
    rintro level s t ⟨rfl, beside⟩
    exact ⟨rfl, beside.enter⟩
  leave := by
    rintro level s t ⟨deep, beside⟩
    refine ⟨?_, beside.leave⟩
    show s.depth - 1 = level
    omega
  bind name value := fun ⟨deep, beside⟩ => ⟨deep, beside.bind name value⟩
  store new := fun ⟨deep, beside⟩ => ⟨deep, beside.withStore new⟩
  fault := by
    rintro fault a b _ rfl
    rfl
  host _ := rfl
  moved := by
    rintro f g x y a b rfl rfl rfl
    rfl
  excused_moved _ excuse := excuse
  reading := rfl

theorem Coupling.beside_writesAlike (start start' : State W) :
    (Coupling.beside start start').WritesAlike := by
  rintro level s t ⟨_, beside⟩
  show s.config.correctsWrites = t.config.correctsWrites
  rw [beside.config]

/-- Both may enter a node, or both fail for the same limit. -/
private theorem beside_admits (start start' : State W) (level : Nat) :
    (Coupling.beside start start').Admits level := by
  rintro s t a b ⟨_, beside⟩ rfl
  have same : s.exhausted? = t.exhausted? := by
    unfold State.exhausted?
    rw [beside.config, beside.depth]
  cases full : s.exhausted? with
  | none => exact .inl ⟨rfl, same ▸ full⟩
  | some limit => exact .inr ⟨limit, rfl, .inr ⟨same ▸ full, rfl⟩⟩

section
variable [Host W] {start start' : State W}

/-- An expression runs beside itself, at any depth. -/
private theorem beside_self (top : start.current = start'.current) (e : Expr) (level : Nat) :
    (Coupling.beside start start').CoupledBy level e.node e.node :=
  e.coupled (Coupling.beside_stepwise top) (Coupling.beside_writesAlike start start') (fun _ => rfl)
    fun deep _ _ => beside_admits start start' deep

/-- In the scope of a value an expression runs beside itself, whatever the contexts below are. -/
private theorem beside_pushed (value : TypedValue) (e : Expr) (level : Nat) :
    (Coupling.beside (start.push value) (start'.push value)).CoupledBy level e.node e.node := by
  apply beside_self
  rw [State.current_push, State.current_push]

omit [Host W] in
private theorem inStep_of_coupled {action : Eval W α} (same : start.SameSetting start')
    (coupled : (Coupling.beside start start').Coupled start.depth action action) :
    RunsInStep start start' (action.outcome start) (action.outcome start') := by
  have ended := coupled start start' ⟨rfl, .refl same⟩
  unfold Coupling.CoupledAt at ended
  generalize action.outcome start = run at ended ⊢
  generalize action.outcome start' = run' at ended ⊢
  cases ended with
  | returned value reached => exact ⟨rfl, reached.2⟩
  | failed alike reached => exact ⟨congrArg Except.error alike, reached.2⟩
  | excused excuse s other => exact excuse.elim

omit [Host W] in
/-- In the scope of a value, whatever the contexts of the two states are, that value is the innermost one. -/
private theorem inStep_inScope (same : start.SameSetting start') (value : TypedValue) {body : Eval W α}
    (coupled : (Coupling.beside (start.push value) (start'.push value)).Coupled start.depth body body) :
    RunsInStep start start' ((Eval.inScope value body).outcome start)
      ((Eval.inScope value body).outcome start') := by
  have pushed : (start.push value).SameSetting (start'.push value) :=
    ⟨same.root, same.bindings, same.store, same.config, same.depth⟩
  obtain ⟨result, reached⟩ := inStep_of_coupled pushed coupled
  rw [Eval.outcome_inScope, Eval.outcome_inScope]
  exact ⟨result, (State.Beside.refl same).cut reached.of_push⟩

omit [Host W] in
private theorem inStep_pure (same : start.SameSetting start') (value : α) :
    RunsInStep start start' ((pure value : Eval W α).outcome start)
      ((pure value : Eval W α).outcome start') :=
  ⟨rfl, .refl same⟩

/-- The key of an index does not depend on any active context. -/
theorem inStep_key (same : start.SameSetting start') (index : Expr) :
    RunsInStep start start' ((Indexer.key index.evaluate).outcome start)
      ((Indexer.key index.evaluate).outcome start') := by
  have run := inStep_inScope same start.root (beside_pushed start.root index start.depth).evaluate
  have opened (state : State W) : (Indexer.key index.evaluate).outcome state =
      ((fun typed => typed.value) <$> Eval.inScope state.root index.evaluate).outcome state := by
    rw [Indexer.key, Eval.outcome_bind, Eval.outcome_get, ← bind_pure_comp]
  rw [opened, opened, ← same.root, Eval.outcome_map, Eval.outcome_map]
  exact ⟨congrArg (Except.map fun typed => typed.value) run.result, run.reached⟩

/-- The arguments of a method do not depend on any active context. -/
theorem inStep_arguments (same : start.SameSetting start') (args : List Expr) :
    RunsInStep start start' ((Method.arguments (args.map Expr.evaluate)).outcome start)
      ((Method.arguments (args.map Expr.evaluate)).outcome start') := by
  cases args with
  | nil => exact inStep_pure same []
  | cons first rest =>
    have together : List.Forall₂
        ((Coupling.beside (start.push start.root) (start'.push start.root)).Coupled start.depth)
        ((first :: rest).map Expr.evaluate) ((first :: rest).map Expr.evaluate) := by
      rw [List.forall₂_map_left_iff, List.forall₂_map_right_iff, List.forall₂_same]
      exact fun arg _ => (beside_pushed start.root arg start.depth).evaluate
    have run := inStep_inScope same start.root (Coupling.coupled_values together)
    have opened (state : State W) :
        (Method.arguments ((first :: rest).map Expr.evaluate)).outcome state =
          (Eval.inScope state.root
            (Method.values ((first :: rest).map Expr.evaluate))).outcome state := by
      rw [Method.arguments, if_neg (by simp), Eval.outcome_bind, Eval.outcome_get]
    rw [opened, opened, ← same.root]
    exact run

/-- Two states may have whatever active contexts, of whatever number. If the innermost ones are the same,
every operation on every expression has the same result from both, be it a value or a failure, and does the
same: to the heap, the application, the variables and the counts. The keys of indices and the arguments of
methods have the same values or failures, and do the same, even if the innermost contexts differ. -/
theorem top_alone_is_seen (same : start.SameSetting start') :
    (start.current = start'.current → ∀ (e : Expr) (value : TypedValue),
      RunsInStep start start' (e.evaluate.outcome start) (e.evaluate.outcome start') ∧
      RunsInStep start start' ((e.store value).outcome start) ((e.store value).outcome start') ∧
      RunsInStep start start' (e.isAssignable.outcome start) (e.isAssignable.outcome start')) ∧
    (∀ index : Expr, RunsInStep start start' ((Indexer.key index.evaluate).outcome start)
      ((Indexer.key index.evaluate).outcome start')) ∧
    ∀ args : List Expr,
      RunsInStep start start' ((Method.arguments (args.map Expr.evaluate)).outcome start)
        ((Method.arguments (args.map Expr.evaluate)).outcome start') := by
  refine ⟨fun top e value => ?_, inStep_key same, inStep_arguments same⟩
  have coupled := beside_self top e start.depth
  exact ⟨inStep_of_coupled same coupled.evaluate, inStep_of_coupled same (coupled.assign value),
    inStep_of_coupled same coupled.isAssignable⟩

end

/-- A root with a list and a position in it, and no active context. -/
private def bareRoot : State Unit :=
  .initial ⟨.object ⟨0⟩, .object⟩ .standard
    ⟨⟨#[[.int 5, .int 6]],
      #[⟨none, .ofList [("at", .plain (.int 1)), ("items", .plain (.list ⟨0⟩))]⟩], #[]⟩, ()⟩

/-- The same with the root as active context, above another one. -/
private def coveredRoot : State Unit := (bareRoot.push .null).push bareRoot.root

/-- The expression `items[at]`. -/
private def selected : Expr :=
  .chain (.property "items" false ⟨0, 5⟩) [.indexer (.property "at" false ⟨6, 8⟩) ⟨5, 9⟩] ⟨0, 9⟩

/-- It has the same value from both states, and so has its key from a third one, in which `null` is the
innermost context. -/
theorem top_alone_is_seen_selected :
    (bareRoot.SameSetting coveredRoot ∧ bareRoot.current = coveredRoot.current ∧
      (selected.evaluate.outcome coveredRoot).1 = .ok ⟨.int 6, .int⟩) ∧
    (bareRoot.SameSetting (bareRoot.push .null) ∧
      ((Indexer.key (Expr.property "at" false ⟨6, 8⟩).evaluate).outcome (bareRoot.push .null)).1 =
        .ok (.int 1)) := by
  have covered : bareRoot.SameSetting coveredRoot := ⟨rfl, rfl, rfl, rfl, rfl⟩
  have top : bareRoot.current = coveredRoot.current := rfl
  have below : bareRoot.SameSetting (bareRoot.push .null) := ⟨rfl, rfl, rfl, rfl, rfl⟩
  obtain ⟨operations, -, -⟩ := top_alone_is_seen covered
  obtain ⟨evaluation, -, -⟩ := operations top selected .null
  obtain ⟨-, keys, -⟩ := top_alone_is_seen below
  have key := keys (.property "at" false ⟨6, 8⟩)
  refine ⟨⟨covered, top, ?_⟩, below, ?_⟩
  · rw [← evaluation.result]
    rfl
  · rw [← key.result]
    rfl

end DotChain
