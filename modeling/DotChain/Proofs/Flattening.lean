import DotChain.Expr.Flatten
import DotChain.Proofs.Nesting

/-!
# Flat chains mean the same

A chain that begins with a chain does what the joined chain does, one level of nesting deeper. Main
statement: `flatten_alike`, a tree and its flattened form have the same value and leave the same state but
for the number of nodes entered, or they fail alike but for the place; with a limit of nesting, unless the
tree itself nests too deep.

The two runs are coupled while the first may be some levels deeper than the second (`Coupling.flatter`).
Joining one chain adds a level (`Coupling.coupledBy_joined`), and couplings compose (`Coupling.ends_trans`).
-/

namespace DotChain

variable {W α : Type}

/-- The same failure without its place. -/
def Failure.unplaced : Failure → Failure
  | eval error => eval { error with span := none }
  | host error => host error

@[simp] theorem Failure.unplaced_movedTo (failure : Failure) (span : Span) :
    (failure.movedTo span).unplaced = failure.unplaced := by
  cases failure <;> rfl

/-- Whether nodes nest too deep does not depend on a place. -/
theorem Failure.Exhausts.of_unplaced {first second : Failure} {limit : Nat}
    (exhausts : second.Exhausts limit) (same : first.unplaced = second.unplaced) :
    first.Exhausts limit := by
  cases second with
  | host error => exact exhausts.elim
  | eval error =>
    cases first with
    | host other => cases same
    | eval other =>
      have fault : other.fault = error.fault := (EvalError.mk.inj (Failure.eval.inj same)).1
      exact fault.trans exhausts

/-- What is the same in two states that may differ in how deep nodes nest and in how many nodes were
entered. -/
structure State.Alike (first second : State W) : Prop where
  root : first.root = second.root
  bindings : first.bindings = second.bindings
  contexts : first.contexts = second.contexts
  config : first.config = second.config
  store : first.store = second.store
  pushes : first.counters.pushes = second.counters.pushes
  pops : first.counters.pops = second.counters.pops
  maxDepth : first.counters.maxDepth = second.counters.maxDepth

/-- Two runs end with the same value, or with failures that differ in their places at most, and in states
that differ in the number of nodes entered at most. -/
structure RunsAlike (first second : Except Failure α × State W) : Prop where
  result : first.1.mapError Failure.unplaced = second.1.mapError Failure.unplaced
  state : first.2.Alike second.2
  depth : first.2.depth = second.2.depth

/-- Two computations run alike from a state, unless its limit ends the first one. -/
def Eval.AlikeWithin (first second : Eval W α) (state : State W) : Prop :=
  RunsAlike (first.outcome state) (second.outcome state) ∨
    ∃ limit, state.config.limit = some limit ∧ first.Exhausts limit state

/-! ## Runs at different depths -/

namespace State.Alike

theorem refl (state : State W) : state.Alike state := ⟨rfl, rfl, rfl, rfl, rfl, rfl, rfl, rfl⟩

theorem trans {first second third : State W} (left : first.Alike second) (right : second.Alike third) :
    first.Alike third where
  root := left.root.trans right.root
  bindings := left.bindings.trans right.bindings
  contexts := left.contexts.trans right.contexts
  config := left.config.trans right.config
  store := left.store.trans right.store
  pushes := left.pushes.trans right.pushes
  pops := left.pops.trans right.pops
  maxDepth := left.maxDepth.trans right.maxDepth

theorem symm {first second : State W} (alike : first.Alike second) : second.Alike first where
  root := alike.root.symm
  bindings := alike.bindings.symm
  contexts := alike.contexts.symm
  config := alike.config.symm
  store := alike.store.symm
  pushes := alike.pushes.symm
  pops := alike.pops.symm
  maxDepth := alike.maxDepth.symm

theorem agree {first second : State W} (alike : first.Alike second) : first.Agree second where
  current := by rw [State.current, State.current, alike.contexts, alike.root]
  root := alike.root
  bindings := alike.bindings
  store := alike.store

theorem push {first second : State W} (alike : first.Alike second) (value : TypedValue) :
    (first.push value).Alike (second.push value) := by
  obtain ⟨root, bindings, contexts, config, store, pushes, pops, maxDepth⟩ := alike
  constructor <;> simp [State.push, *]

theorem cut {first second : State W} (alike : first.Alike second) (depth : Nat) :
    (first.cut depth).Alike (second.cut depth) := by
  obtain ⟨root, bindings, contexts, config, store, pushes, pops, maxDepth⟩ := alike
  constructor <;> simp [State.cut, *]

theorem bind {first second : State W} (alike : first.Alike second) (name : String)
    (value : TypedValue) : (first.bind name value).Alike (second.bind name value) := by
  obtain ⟨root, bindings, contexts, config, store, pushes, pops, maxDepth⟩ := alike
  constructor <;> simp [State.bind, *]

theorem withStore {first second : State W} (alike : first.Alike second) (store : Store W) :
    State.Alike { first with store := store } { second with store := store } := by
  obtain ⟨root, bindings, contexts, config, _, pushes, pops, maxDepth⟩ := alike
  exact ⟨root, bindings, contexts, config, rfl, pushes, pops, maxDepth⟩

/-- Entering a node does not count. -/
theorem enter (state : State W) : state.enter.Alike state := ⟨rfl, rfl, rfl, rfl, rfl, rfl, rfl, rfl⟩

/-- Leaving a node does not count. -/
theorem leave (state : State W) : state.leave.Alike state := ⟨rfl, rfl, rfl, rfl, rfl, rfl, rfl, rfl⟩

end State.Alike

namespace Coupling

/-- A run beside one that is so many levels less deep. -/
def flatter (W : Type) (config : Config) (extra : Nat) : Coupling W where
  states level s t := s.depth = level + extra ∧ t.depth = level ∧ s.config = config ∧ s.Alike t
  failures f g := f.unplaced = g.unplaced
  excuses f := ∃ limit, config.limit = some limit ∧ f.Exhausts limit
  moves _ _ := True

section
variable {config : Config} {extra level : Nat}

theorem flatter_stepwise [Host W] : (flatter W config extra).Stepwise where
  agree := fun ⟨_, _, _, alike⟩ => alike.agree
  push value := fun ⟨deep, less, same, alike⟩ => ⟨deep, less, same, alike.push value⟩
  cut := by
    rintro level s t s' t' ⟨_, _, _, before⟩ ⟨deep, less, same, alike⟩
    refine ⟨deep, less, same, ?_⟩
    rw [before.contexts]
    exact alike.cut _
  enter := by
    rintro level s t ⟨deep, less, same, alike⟩
    refine ⟨?_, ?_, same, (State.Alike.enter s).trans (alike.trans (State.Alike.enter t).symm)⟩
    · show s.depth + 1 = level + 1 + extra
      omega
    · show t.depth + 1 = level + 1
      omega
  leave := by
    rintro level s t ⟨deep, less, same, alike⟩
    refine ⟨?_, ?_, same, (State.Alike.leave s).trans (alike.trans (State.Alike.leave t).symm)⟩
    · show s.depth - 1 = level + extra
      omega
    · show t.depth - 1 = level
      omega
  bind name value := fun ⟨deep, less, same, alike⟩ => ⟨deep, less, same, alike.bind name value⟩
  store new := fun ⟨deep, less, same, alike⟩ => ⟨deep, less, same, alike.withStore new⟩
  fault _ _ := rfl
  host _ := rfl
  moved := by
    intro f g x y a b _ _ (same : f.unplaced = g.unplaced)
    show Failure.unplaced _ = Failure.unplaced _
    cases x <;> cases y <;> simpa using same
  excused_moved span := fun ⟨limit, limited, exhausts⟩ => ⟨limit, limited, exhausts.movedTo span⟩
  reading := trivial

theorem flatter_writesAlike : (flatter W config extra).WritesAlike := fun _ _ _ _ => trivial

/-- Where the second run may not enter a node, neither may the first one, which is the deeper. -/
theorem flatter_admits : (flatter W config extra).Admits level := by
  rintro s t a b ⟨deep, less, rfl, alike⟩ _
  cases limited : s.config.limit with
  | none =>
    left
    constructor
    · rw [State.exhausted?, limited]
    · rw [State.exhausted?, ← alike.config, limited]
  | some limit =>
    by_cases room : s.depth < limit
    · left
      refine ⟨State.exhausted?_eq_none_of_lt limited room, ?_⟩
      apply State.exhausted?_eq_none_of_lt (alike.config ▸ limited)
      omega
    · right
      have full := State.exhausted?_eq_some_of_le limited (Nat.le_of_not_lt room)
      exact ⟨limit, full, .inl ⟨limit, limited, rfl⟩⟩

/-- An expression runs alike with itself at another depth. -/
theorem flatter_self [Host W] (e : Expr) : (flatter W config extra).CoupledBy level e.node e.node :=
  e.coupled flatter_stepwise flatter_writesAlike (fun _ => trivial) fun _ _ _ => flatter_admits

private theorem excuses_intro {limit : Nat} (limited : config.limit = some limit) {failure : Failure}
    (exhausts : failure.Exhausts limit) : (flatter W config extra).excuses failure :=
  ⟨limit, limited, exhausts⟩

/-- What excuses does not depend on how much deeper the first run is. -/
private theorem excuses_at {other : Nat} {failure : Failure}
    (excuse : (flatter W config other).excuses failure) : (flatter W config extra).excuses failure :=
  excuse

/-- Runs alike with a run that is alike with a third are alike with the third. -/
theorem ends_trans {first second third : Except Failure α × State W}
    (left : (flatter W config 0).Ends (level + extra) first second)
    (right : (flatter W config extra).Ends level second third) :
    (flatter W config extra).Ends level first third := by
  cases left with
  | excused excuse s other => exact .excused (excuses_at excuse) s third
  | returned value reached =>
    obtain ⟨deep, _, same, alike⟩ := reached
    cases right with
    | returned _ reached => exact .returned value ⟨deep, reached.2.1, same, alike.trans reached.2.2.2⟩
  | failed like reached =>
    obtain ⟨deep, _, same, alike⟩ := reached
    cases right with
    | failed like' reached =>
      exact .failed (like.trans like') ⟨deep, reached.2.1, same, alike.trans reached.2.2.2⟩
    | excused excuse s other =>
      obtain ⟨limit, limited, exhausts⟩ := excuse
      exact .excused (excuses_intro limited (exhausts.of_unplaced like)) _ third

/-- Leaving the node that only the first run has entered. -/
private theorem left_leave {s t : State W} (reached : (flatter W config (extra + 1)).states level s t) :
    (flatter W config extra).states level s.leave t := by
  obtain ⟨deep, less, same, alike⟩ := reached
  refine ⟨?_, less, same, (State.Alike.leave s).trans alike⟩
  show s.depth - 1 = level + extra
  omega

theorem coupled_trans {first second third : Eval W α}
    (left : (flatter W config 0).Coupled (level + extra) first second)
    (right : (flatter W config extra).Coupled level second third) :
    (flatter W config extra).Coupled level first third := by
  rintro s t ⟨deep, less, same, alike⟩
  exact ends_trans (left s s ⟨deep, deep, same, State.Alike.refl s⟩)
    (right s t ⟨deep, less, same, alike⟩)

theorem coupledBy_trans {first second third : Node W}
    (left : (flatter W config 0).CoupledBy (level + extra) first second)
    (right : (flatter W config extra).CoupledBy level second third) :
    (flatter W config extra).CoupledBy level first third where
  placed := trivial
  evaluate := coupled_trans left.evaluate right.evaluate
  assign value := coupled_trans (left.assign value) (right.assign value)
  isAssignable := coupled_trans left.isAssignable right.isAssignable

/-! ## Joining one chain -/

/-- A node around the first computation makes it one level deeper. -/
theorem coupled_inNode_left {first second : Eval W α} (span : Span)
    (inside : (flatter W config (extra + 1)).Coupled level first second) :
    (flatter W config extra).Coupled level (Eval.inNode span first) second := by
  rintro s t ⟨deep, less, same, alike⟩
  unfold CoupledAt
  rw [Eval.outcome_inNode]
  cases full : s.exhausted? with
  | some limit =>
    have limited : config.limit = some limit := same ▸ State.limit_of_exhausted? full
    exact .excused (excuses_intro limited (Failure.exhausts_fault limit span)) s _
  | none =>
    have depth : s.depth + 1 = level + (extra + 1) := by omega
    have ended := inside s.enter t ⟨depth, less, same, (State.Alike.enter s).trans alike⟩
    unfold CoupledAt at ended
    generalize first.outcome s.enter = ended₁ at ended ⊢
    generalize second.outcome t = ended₂ at ended ⊢
    cases ended with
    | returned value reached => exact .returned value (left_leave reached)
    | failed like reached => exact .failed like (left_leave reached)
    | excused excuse s' other => exact .excused (excuses_at excuse) _ _

/-- Moving the errors of the first computation changes only their places. -/
theorem coupled_positioned_left [Host W] {first second : Eval W α} (correct : Bool) (span : Span)
    (inside : (flatter W config extra).Coupled level first second) :
    (flatter W config extra).Coupled level (Eval.positioned correct span first) second := by
  rw [← Eval.positioned_false span second]
  exact coupled_positioned flatter_stepwise trivial trivial inside

/-- Nodes that run alike with themselves at any depth. -/
private def Same (config : Config) (segments : List (Node W)) : Prop :=
  ∀ segment ∈ segments, ∀ extra level, (flatter W config extra).CoupledBy level segment segment

private theorem Same.forall₂ {segments : List (Node W)} (same : Same config segments) :
    List.Forall₂ ((flatter W config extra).CoupledBy level) segments segments :=
  List.forall₂_same.mpr fun segment member => same segment member extra level

section
variable [Host W] {head : Node W} {middle : List (Node W)} (same : Same config (head :: middle))
include same

/-- Reading a chain to its end gives its value, whether errors are moved or not. -/
private theorem coupled_evaluate_read (correct : Bool) :
    (flatter W config extra).Coupled level (Chain.evaluate head middle)
      (Chain.read correct head middle) := by
  obtain ⟨ofHead, ofMiddle⟩ := List.forall_mem_cons.mp same
  cases middle with
  | nil =>
    show Coupled _ _ head.evaluate (Eval.positioned correct head.span head.evaluate >>= pure)
    rw [bind_pure]
    nth_rewrite 1 [← Eval.positioned_false head.span head.evaluate]
    exact coupled_positioned flatter_stepwise trivial trivial (ofHead extra level).evaluate
  | cons next rest =>
    exact coupled_read flatter_stepwise trivial (ofHead extra level).toReadBy
      (forall₂_readBy (Same.forall₂ ofMiddle))

/-- Reading through a chain that stands as head is reading through its segments. -/
private theorem coupled_read_joined (x y : Bool) (span : Span) {rest : List (Node W)}
    (after : Same config rest) :
    (flatter W config extra).Coupled level (Chain.read x (Chain.node head middle span).nested rest)
      (Chain.read y head (middle ++ rest)) := by
  rw [Chain.read_append]
  apply coupled_bind
  · apply coupled_positioned_left
    exact coupled_inNode_left span (coupled_evaluate_read same y)
  · exact coupled_follow flatter_stepwise trivial (forall₂_readBy (Same.forall₂ after))

private theorem coupled_evaluate_joined (span : Span) {more : List (Node W)}
    (after : Same config more) :
    (flatter W config extra).Coupled level
      (Chain.evaluate (Chain.node head middle span).nested more)
      (Chain.evaluate head (middle ++ more)) := by
  obtain ⟨ofHead, ofMiddle⟩ := List.forall_mem_cons.mp same
  cases more with
  | nil =>
    rw [List.append_nil]
    apply coupled_inNode_left
    exact coupled_evaluate_chain flatter_stepwise (ofHead _ level).toReadBy
      (forall₂_readBy (Same.forall₂ ofMiddle))
  | cons next rest =>
    have several : (middle ++ next :: rest).isEmpty = false := by simp
    rw [Chain.evaluate, Chain.evaluate, several, if_neg Bool.false_ne_true]
    exact coupled_read_joined same true true span after

/-- An operation that a chain passes on to its last segment reaches the same segment. -/
private theorem coupled_atLast_joined (operation : Node W → Eval W α) (span : Span)
    {more : List (Node W)} (after : Same config more)
    (passed : operation (Chain.node head middle span).nested =
      Eval.inNode span (Chain.atLast head middle operation))
    (operated : ∀ {extra level : Nat} {node node' : Node W},
      (flatter W config extra).CoupledBy level node node' →
        (flatter W config extra).Coupled level (operation node) (operation node')) :
    (flatter W config extra).Coupled level
      (Chain.atLast (Chain.node head middle span).nested more operation)
      (Chain.atLast head (middle ++ more) operation) := by
  obtain ⟨ofHead, ofMiddle⟩ := List.forall_mem_cons.mp same
  rcases List.eq_nil_or_concat more with rfl | ⟨init, last, split⟩
  · rw [List.append_nil, Chain.atLast_nil, passed]
    apply coupled_inNode_left
    exact coupled_atLast flatter_stepwise flatter_writesAlike (ofHead _ level) (Same.forall₂ ofMiddle)
      operated
  · rw [List.concat_eq_append] at split
    subst split
    obtain ⟨ofInit, ofLast⟩ := List.forall_mem_append.mp after
    have last' := ofLast last List.mem_cons_self extra level
    rw [← List.append_assoc, Chain.atLast_concat, Chain.atLast_concat]
    apply coupled_get
    intro s t related
    apply coupledAt_bind (coupled_read_joined same _ _ span ofInit s t related)
    intro target s' t' _ reached
    exact coupled_inScope flatter_stepwise target
      (coupled_positioned flatter_stepwise trivial trivial (operated last')) s' t' reached

/-- A chain that begins with a chain runs like the two joined. -/
private theorem coupledBy_joined_nodes (inner outer : Span) {more : List (Node W)}
    (after : Same config more) :
    (flatter W config extra).CoupledBy level
      (Chain.node (Chain.node head middle inner).nested more outer).nested
      (Chain.node head (middle ++ more) outer).nested := by
  apply coupledBy_nested flatter_stepwise flatter_admits
  constructor
  · exact ⟨trivial, coupled_evaluate_joined same inner after⟩
  · intro value
    exact coupled_atLast_joined same (·.assign value) inner after rfl fun alike => alike.assign value
  · exact coupled_atLast_joined same (·.isAssignable) inner after rfl fun alike => alike.isAssignable

end

private theorem same_nodes [Host W] (es : List Expr) : Same config (es.map (Expr.node (W := W))) := by
  intro node member extra level
  obtain ⟨e, _, rfl⟩ := List.mem_map.mp member
  exact flatter_self e

/-- Putting segments behind a head, or behind the segments of a head that is a chain, is the same. -/
theorem coupledBy_joined [Host W] (head : Expr) (more : List Expr) (span : Span) :
    (flatter W config extra).CoupledBy level (Expr.chain head more span).node
      (head.joined more span).node := by
  cases head with
  | chain first middle inner =>
    show CoupledBy _ _ (Chain.node (Chain.node first.node (Expr.nodes middle) inner).nested
      (Expr.nodes more) span).nested (Chain.node first.node (Expr.nodes (middle ++ more)) span).nested
    rw [Expr.nodes_eq_map, Expr.nodes_eq_map, Expr.nodes_eq_map, List.map_append]
    exact coupledBy_joined_nodes (same_nodes (first :: middle)) inner span (same_nodes more)
  | _ => exact flatter_self _

/-- An expression runs alike with its flattened form, however much deeper it stands. -/
theorem coupledBy_flatten [Host W] (e : Expr) {extra level : Nat} :
    (flatter W config extra).CoupledBy level e.node e.flatten.node := by
  have together (es : List Expr) {extra level : Nat}
      (each : ∀ e ∈ es, (flatter W config extra).CoupledBy level e.node e.flatten.node) :
      List.Forall₂ ((flatter W config extra).CoupledBy level) (Expr.nodes es)
        (Expr.nodes (es.map Expr.flatten)) := by
    rw [Expr.nodes_eq_map, Expr.nodes_eq_map, List.forall₂_map_left_iff, List.map_map,
      List.forall₂_map_right_iff, List.forall₂_same]
    exact each
  induction e generalizing extra level with
  | literal value span => exact flatter_self _
  | property name dotted span => exact flatter_self _
  | reference name span => exact flatter_self _
  | indexer index span ih =>
    apply coupledBy_nested flatter_stepwise flatter_admits
    have inside : (flatter W config extra).Coupled (level + 1) _ _ := ih.evaluate
    exact ⟨⟨trivial, coupled_indexer flatter_stepwise inside trivial⟩,
      coupled_assign_indexer flatter_stepwise inside trivial,
      coupled_isAssignable_indexer flatter_stepwise inside⟩
  | method name args dotted span ih =>
    rw [Expr.flatten_method]
    apply coupledBy_nested flatter_stepwise flatter_admits
    exact coupledBy_method flatter_stepwise name trivial
      (forall₂_readBy (together args fun arg member => ih arg member))
  | assign target value span ofTarget ofValue =>
    apply coupledBy_nested flatter_stepwise flatter_admits
    exact coupledBy_assignment flatter_stepwise trivial ofTarget ofValue.toReadBy
  | chain head tail span ofHead ofTail =>
    rw [Expr.flatten_chain]
    -- First the segments are flattened where they stand, then the head is joined with them.
    refine coupledBy_trans ?_ (coupledBy_joined head.flatten (tail.map Expr.flatten) span)
    apply coupledBy_nested flatter_stepwise flatter_admits
    exact coupledBy_chain flatter_stepwise flatter_writesAlike trivial ofHead
      (together tail fun segment member => ofTail segment member)

end

end Coupling

/-! ## Flattening -/

private theorem alikeWithin_of_coupled {first second : Eval W α} {state : State W}
    (coupled : (Coupling.flatter W state.config 0).Coupled state.depth first second) :
    first.AlikeWithin second state := by
  have ended := coupled state state ⟨rfl, rfl, rfl, State.Alike.refl state⟩
  unfold Coupling.CoupledAt at ended
  unfold Eval.AlikeWithin Eval.Exhausts
  generalize first.outcome state = ended₁ at ended ⊢
  generalize second.outcome state = ended₂ at ended ⊢
  cases ended with
  | returned value reached =>
    obtain ⟨deep, less, _, alike⟩ := reached
    exact .inl ⟨rfl, alike, deep.trans less.symm⟩
  | failed like reached =>
    obtain ⟨deep, less, _, alike⟩ := reached
    exact .inl ⟨congrArg Except.error like, alike, deep.trans less.symm⟩
  | excused excuse s other =>
    obtain ⟨limit, limited, exhausts⟩ := excuse
    exact .inr ⟨limit, limited, _, rfl, exhausts⟩

/-- A tree and its flattened form run alike under all three operations, from whatever state: with the same
value or failures that differ in place at most, and to states that differ in the number of nodes entered
at most. The one exception is a tree that nests deeper than the limit of the state. -/
theorem flatten_alike [Host W] (e : Expr) (value : TypedValue) (state : State W) :
    e.evaluate.AlikeWithin e.flatten.evaluate state ∧
    (e.store value).AlikeWithin (e.flatten.store value) state ∧
    e.isAssignable.AlikeWithin e.flatten.isAssignable state := by
  have coupled : (Coupling.flatter W state.config 0).CoupledBy state.depth e.node e.flatten.node :=
    Coupling.coupledBy_flatten e
  exact ⟨alikeWithin_of_coupled coupled.evaluate, alikeWithin_of_coupled (coupled.assign value),
    alikeWithin_of_coupled coupled.isAssignable⟩

end DotChain
