import DotChain.Expr.Assignment
import DotChain.Expr.Height
import DotChain.Expr.Matching
import DotChain.Meaning
import DotChain.Outcome
import DotChain.Proofs.Faults
import Mathlib.Data.List.Forall2

/-!
# Two runs side by side

A coupling says what two runs have in common as they go along: which states they may reach together,
and by which failures they may end together. The first run may also end by a failure that excuses the
second one from everything. Runs that take the same steps stay coupled if each single step leaves them
so. Main statements: `Expr.coupled_matches`, for all three operations on two expressions that differ at most
in where they stand, and `Expr.coupled_reads`, for evaluating an expression without assignments, where it
does not matter how the errors of writing are moved. The lemmas that they are assembled from, one for each
way of building a node, speak of two computations that may differ.
-/

namespace DotChain

variable {W α β : Type}

/-- What two runs have in common. -/
structure Coupling (W : Type) where
  /-- The states that the runs may reach together, so many levels of nesting deep. -/
  states : Nat → State W → State W → Prop
  /-- The failures by which they may end together. -/
  failures : Failure → Failure → Prop
  /-- The failures of the first run after which nothing is asked of the second. -/
  excuses : Failure → Prop := fun _ => False
  /-- The places at which nodes of the two may stand together. -/
  places : Span → Span → Prop := fun _ _ => True
  /-- Whether the first run moves errors, and whether the second one does. -/
  moves : Bool → Bool → Prop := Eq

/-- What a step of an evaluation may look at is the same in two states. -/
structure State.Agree (first second : State W) : Prop where
  current : first.current = second.current
  root : first.root = second.root
  bindings : first.bindings = second.bindings
  store : first.store = second.store

theorem State.Agree.heap {first second : State W} (agree : first.Agree second) :
    first.heap = second.heap := by
  rw [State.heap, agree.store]
  rfl

namespace Coupling

/-- How two runs may end together. -/
inductive Ends (coupling : Coupling W) (level : Nat) :
    Except Failure α × State W → Except Failure α × State W → Prop
  | returned (value : α) {s t : State W} (reached : coupling.states level s t) :
    Ends coupling level (.ok value, s) (.ok value, t)
  | failed {f g : Failure} {s t : State W} (alike : coupling.failures f g)
    (reached : coupling.states level s t) : Ends coupling level (.error f, s) (.error g, t)
  | excused {f : Failure} (excuse : coupling.excuses f) (s : State W)
    (other : Except Failure α × State W) : Ends coupling level (.error f, s) other

/-- Two computations end together when they start in two given states. -/
def CoupledAt (coupling : Coupling W) (level : Nat) (first second : Eval W α) (s t : State W) : Prop :=
  coupling.Ends level (first.outcome s) (second.outcome t)

/-- Two computations end together wherever they start together. -/
def Coupled (coupling : Coupling W) (level : Nat) (first second : Eval W α) : Prop :=
  ∀ s t, coupling.states level s t → coupling.CoupledAt level first second s t

/-- Evaluations of two nodes end together, and the nodes stand together. -/
structure ReadBy (coupling : Coupling W) (level : Nat) (first second : Node W) : Prop where
  placed : coupling.places first.span second.span
  evaluate : coupling.Coupled level first.evaluate second.evaluate

/-- All three operations of two nodes end together, and the nodes stand together. -/
structure CoupledBy (coupling : Coupling W) (level : Nat) (first second : Node W) : Prop
    extends coupling.ReadBy level first second where
  assign (value : TypedValue) : coupling.Coupled level (first.assign value) (second.assign value)
  isAssignable : coupling.Coupled level first.isAssignable second.isAssignable

/-- What the single steps ask of a coupling. -/
structure Stepwise [Host W] (coupling : Coupling W) : Prop where
  agree {level : Nat} {s t : State W} : coupling.states level s t → s.Agree t
  push {level : Nat} {s t : State W} (value : TypedValue) :
    coupling.states level s t → coupling.states level (s.push value) (t.push value)
  cut {level : Nat} {s t s' t' : State W} : coupling.states level s t → coupling.states level s' t' →
    coupling.states level (s'.cut s.contexts.length) (t'.cut t.contexts.length)
  enter {level : Nat} {s t : State W} :
    coupling.states level s t → coupling.states (level + 1) s.enter t.enter
  leave {level : Nat} {s t : State W} :
    coupling.states (level + 1) s t → coupling.states level s.leave t.leave
  bind {level : Nat} {s t : State W} (name : String) (value : TypedValue) :
    coupling.states level s t → coupling.states level (s.bind name value) (t.bind name value)
  store {level : Nat} {s t : State W} (store : Store W) : coupling.states level s t →
    coupling.states level { s with store := store } { t with store := store }
  fault {fault : Fault} {a b : Span} (ordinary : fault.Ordinary) (placed : coupling.places a b) :
    coupling.failures (.fault fault a) (.fault fault b)
  host (error : HostError) : coupling.failures (.host error) (.host error)
  moved {f g : Failure} {x y : Bool} {a b : Span} (moves : coupling.moves x y)
    (placed : coupling.places a b) : coupling.failures f g →
      coupling.failures (if x then f.movedTo a else f) (if y then g.movedTo b else g)
  excused_moved {f : Failure} (span : Span) : coupling.excuses f → coupling.excuses (f.movedTo span)
  reading : coupling.moves true true

/-- The errors of writing may be moved in the one run as they are in the other. -/
def WritesAlike (coupling : Coupling W) : Prop :=
  ∀ level s t, coupling.states level s t → coupling.moves s.config.correctsWrites t.config.correctsWrites

/-- At a level, the runs may either both enter nodes, or the first one is excused if it may not, or both
fail together. -/
def Admits (coupling : Coupling W) (level : Nat) : Prop :=
  ∀ s t a b, coupling.states level s t → coupling.places a b →
    (s.exhausted? = none ∧ t.exhausted? = none) ∨
    ∃ limit, s.exhausted? = some limit ∧
      (coupling.excuses (.fault (.recursionLimit limit) a) ∨
        t.exhausted? = some limit ∧
          coupling.failures (.fault (.recursionLimit limit) a) (.fault (.recursionLimit limit) b))

/-- So many levels of nesting from a given one on admit nodes. -/
def AdmitsDown (coupling : Coupling W) (level levels : Nat) : Prop :=
  ∀ deep, level ≤ deep → deep < level + levels → coupling.Admits deep

theorem AdmitsDown.here {coupling : Coupling W} {level levels : Nat}
    (admits : coupling.AdmitsDown level levels) (some : 0 < levels) : coupling.Admits level :=
  admits level (Nat.le_refl _) (by omega)

theorem AdmitsDown.below {coupling : Coupling W} {level levels fewer : Nat}
    (admits : coupling.AdmitsDown level levels) (less : fewer < levels) :
    coupling.AdmitsDown (level + 1) fewer := by
  intro deep low high
  exact admits deep (by omega) (by omega)

/-! ## Computations -/

section
variable {coupling : Coupling W} {level : Nat} {s t : State W} {a b : Span}

theorem coupledAt_pure (value : α) (related : coupling.states level s t) :
    coupling.CoupledAt level (pure value) (pure value) s t :=
  .returned value related

theorem coupled_pure (value : α) : coupling.Coupled level (pure value) (pure value) :=
  fun _ _ related => coupledAt_pure value related

theorem coupledAt_set {s' t' : State W} (related : coupling.states level s' t') :
    coupling.CoupledAt level (set s' : Eval W PUnit) (set t') s t :=
  .returned _ related

/-- What follows only has to end together from the states that the first computations reach. -/
theorem coupledAt_bind {first second : Eval W α} {next next' : α → Eval W β}
    (before : coupling.CoupledAt level first second s t)
    (after : ∀ value s' t', first.outcome s = (.ok value, s') → coupling.states level s' t' →
      coupling.CoupledAt level (next value) (next' value) s' t') :
    coupling.CoupledAt level (first >>= next) (second >>= next') s t := by
  unfold CoupledAt at before ⊢
  rw [Eval.outcome_bind, Eval.outcome_bind]
  generalize run : first.outcome s = ended at before ⊢
  generalize second.outcome t = ended' at before ⊢
  cases before with
  | returned value reached => exact after value _ _ run reached
  | failed alike reached => exact .failed alike reached
  | excused excuse s' other => exact .excused excuse s' _

theorem coupled_bind {first second : Eval W α} {next next' : α → Eval W β}
    (before : coupling.Coupled level first second)
    (after : ∀ value, coupling.Coupled level (next value) (next' value)) :
    coupling.Coupled level (first >>= next) (second >>= next') := by
  intro s t related
  apply coupledAt_bind (before s t related)
  intro value s' t' _ reached
  exact after value s' t' reached

theorem coupledAt_get {next next' : State W → Eval W β}
    (after : coupling.CoupledAt level (next s) (next' t) s t) :
    coupling.CoupledAt level (get >>= next) (get >>= next') s t := by
  unfold CoupledAt at after ⊢
  rw [Eval.outcome_bind, Eval.outcome_bind]
  exact after

/-- Both ask for their state. What they do then may look at what the states agree on. -/
theorem coupled_get {next next' : State W → Eval W β}
    (after : ∀ s t, coupling.states level s t → coupling.CoupledAt level (next s) (next' t) s t) :
    coupling.Coupled level (get >>= next) (get >>= next') :=
  fun s t related => coupledAt_get (after s t related)

variable [Host W]

theorem coupledAt_fault (steps : coupling.Stepwise) {fault : Fault} (placed : coupling.places a b)
    (related : coupling.states level s t) (ordinary : fault.Ordinary := by trivial) :
    coupling.CoupledAt level (Eval.fault fault a : Eval W α) (Eval.fault fault b) s t :=
  .failed (steps.fault ordinary placed) related

theorem coupledAt_orFault (steps : coupling.Stepwise) (found : Option α) {fault : Fault}
    (placed : coupling.places a b) (related : coupling.states level s t)
    (ordinary : fault.Ordinary := by trivial) :
    coupling.CoupledAt level (Eval.orFault found fault a) (Eval.orFault found fault b) s t := by
  cases found with
  | none => exact coupledAt_fault steps placed related ordinary
  | some value => exact coupledAt_pure value related

/-- Going on with the heap that a change makes, with a fault if the change is refused. -/
theorem coupledAt_change (steps : coupling.Stepwise) (changed : Option Heap) {fault : Fault}
    (placed : coupling.places a b) (related : coupling.states level s t)
    (ordinary : fault.Ordinary := by trivial) :
    coupling.CoupledAt level (do set (s.withHeap (← Eval.orFault changed fault a)) : Eval W Unit)
      (do set (t.withHeap (← Eval.orFault changed fault b))) s t := by
  cases changed with
  | none => exact coupledAt_fault steps placed related ordinary
  | some heap =>
    have same : s.store = t.store := (steps.agree related).store
    have reached := steps.store { t.store with heap := heap } related
    apply coupledAt_set
    unfold State.withHeap
    rw [same]
    exact reached

theorem coupled_host (steps : coupling.Stepwise) (action : HostAction W α) :
    coupling.Coupled level (Eval.host action) (Eval.host action) := by
  intro s t related
  unfold CoupledAt
  rw [Eval.outcome_host, Eval.outcome_host, (steps.agree related).store]
  have reached := steps.store ((ExceptT.run action).run t.store).2 related
  cases ((ExceptT.run action).run t.store).1 with
  | ok value => exact .returned value reached
  | error error => exact .failed (steps.host error) reached

theorem coupled_inScope (steps : coupling.Stepwise) (value : TypedValue) {first second : Eval W α}
    (inside : coupling.Coupled level first second) :
    coupling.Coupled level (Eval.inScope value first) (Eval.inScope value second) := by
  intro s t related
  have ended := inside _ _ (steps.push value related)
  unfold CoupledAt at ended ⊢
  rw [Eval.outcome_inScope, Eval.outcome_inScope]
  generalize first.outcome (s.push value) = ended₁ at ended ⊢
  generalize second.outcome (t.push value) = ended₂ at ended ⊢
  cases ended with
  | returned result reached => exact .returned result (steps.cut related reached)
  | failed alike reached => exact .failed alike (steps.cut related reached)
  | excused excuse s' other => exact .excused excuse _ _

theorem coupled_inNode (steps : coupling.Stepwise) (admits : coupling.Admits level)
    (placed : coupling.places a b) {first second : Eval W α}
    (inside : coupling.Coupled (level + 1) first second) :
    coupling.Coupled level (Eval.inNode a first) (Eval.inNode b second) := by
  intro s t related
  unfold CoupledAt
  rw [Eval.outcome_inNode, Eval.outcome_inNode]
  rcases admits s t a b related placed with ⟨free, free'⟩ | ⟨limit, full, excuse | ⟨full', alike⟩⟩
  · rw [free, free']
    have ended := inside _ _ (steps.enter related)
    unfold CoupledAt at ended
    generalize first.outcome s.enter = ended₁ at ended ⊢
    generalize second.outcome t.enter = ended₂ at ended ⊢
    cases ended with
    | returned result reached => exact .returned result (steps.leave reached)
    | failed alike reached => exact .failed alike (steps.leave reached)
    | excused excuse s' other => exact .excused excuse _ _
  · rw [full]
    exact .excused excuse s _
  · rw [full, full']
    exact .failed alike related

theorem coupled_positioned (steps : coupling.Stepwise) {x y : Bool} (moves : coupling.moves x y)
    (placed : coupling.places a b) {first second : Eval W α}
    (inside : coupling.Coupled level first second) :
    coupling.Coupled level (Eval.positioned x a first) (Eval.positioned y b second) := by
  intro s t related
  have ended := inside s t related
  unfold CoupledAt at ended ⊢
  rw [Eval.outcome_positioned, Eval.outcome_positioned]
  generalize first.outcome s = ended₁ at ended ⊢
  generalize second.outcome t = ended₂ at ended ⊢
  cases ended with
  | returned result reached => exact .returned result reached
  | failed alike reached => exact .failed (steps.moved moves placed alike) reached
  | excused excuse s' other =>
    refine .excused ?_ s' _
    cases x with
    | false => exact excuse
    | true => exact steps.excused_moved a excuse

/-! ## Properties and variables -/

/-- A value that the application may or may not have, with a fault if it has none. -/
theorem coupledAt_answer (steps : coupling.Stepwise) (action : HostAction W (Option Value))
    {fault : Fault} (placed : coupling.places a b) (related : coupling.states level s t)
    (ordinary : fault.Ordinary := by trivial) :
    coupling.CoupledAt level
      (do
        let value ← Eval.orFault (← Eval.host action) fault a
        return (← get).heap.typed value)
      (do
        let value ← Eval.orFault (← Eval.host action) fault b
        return (← get).heap.typed value) s t := by
  apply coupledAt_bind (coupled_host steps action s t related)
  intro found s t _ related
  apply coupledAt_bind (coupledAt_orFault steps found placed related ordinary)
  intro value s' t' _ reached
  apply coupledAt_get
  rw [(steps.agree reached).heap]
  exact coupledAt_pure _ reached

/-- Telling the application to write, with a fault if it refuses. -/
theorem coupledAt_write (steps : coupling.Stepwise) (id : HostId) (name : String) (value : Value)
    {fault : Fault} (placed : coupling.places a b) (related : coupling.states level s t)
    (ordinary : fault.Ordinary := by trivial) :
    coupling.CoupledAt level
      (do unless ← Eval.host (Host.write id name value) do Eval.fault fault a : Eval W Unit)
      (do unless ← Eval.host (Host.write id name value) do Eval.fault fault b) s t := by
  apply coupledAt_bind (coupled_host steps _ s t related)
  intro written s t _ related
  cases written with
  | true => exact coupledAt_pure _ related
  | false => exact coupledAt_fault steps placed related ordinary

theorem coupled_property (steps : coupling.Stepwise) (name : String) (placed : coupling.places a b) :
    coupling.Coupled level (Property.evaluate name a : Eval W TypedValue) (Property.evaluate name b) := by
  apply coupled_get
  intro s t related
  have same := steps.agree related
  rw [same.current, same.heap]
  cases t.current.value with
  | null => exact coupledAt_fault steps placed related
  | object id => exact coupledAt_orFault steps _ placed related
  | host id => exact coupledAt_answer steps (Host.read id name) placed related
  | _ =>
    apply coupledAt_bind (coupledAt_orFault steps _ placed related)
    intro length s' t' _ reached
    exact coupledAt_pure _ reached

theorem coupled_assign_property (steps : coupling.Stepwise) (name : String)
    (placed : coupling.places a b) (value : TypedValue) :
    coupling.Coupled level (Property.assign name a value : Eval W Unit)
      (Property.assign name b value) := by
  apply coupled_get
  intro s t related
  have same := steps.agree related
  rw [same.current, same.heap]
  cases t.current.value with
  | null => exact coupledAt_fault steps placed related
  | object id => exact coupledAt_change steps _ placed related
  | host id => exact coupledAt_write steps id name _ placed related
  | _ =>
    dsimp only
    split
    · exact coupledAt_fault steps placed related
    · exact coupledAt_fault steps placed related

theorem coupled_isAssignable_property (steps : coupling.Stepwise) (name : String) :
    coupling.Coupled level (Property.isAssignable name : Eval W Bool) (Property.isAssignable name) := by
  apply coupled_get
  intro s t related
  have same := steps.agree related
  rw [same.current, same.heap]
  cases t.current.value with
  | host id => exact coupled_host steps _ s t related
  | _ => exact coupledAt_pure _ related

theorem coupled_variable (steps : coupling.Stepwise) (name : String) (placed : coupling.places a b) :
    coupling.Coupled level (Variable.evaluate name a : Eval W TypedValue) (Variable.evaluate name b) := by
  apply coupled_get
  intro s t related
  have same := steps.agree related
  rw [same.current, same.root, same.bindings]
  split
  · exact coupledAt_pure _ related
  · split
    · exact coupledAt_pure _ related
    · exact coupledAt_orFault steps _ placed related

theorem coupled_assign_variable (steps : coupling.Stepwise) (name : String)
    (placed : coupling.places a b) (value : TypedValue) :
    coupling.Coupled level (Variable.assign name a value : Eval W Unit)
      (Variable.assign name b value) := by
  intro s t related
  unfold Variable.assign
  split
  · exact .returned _ (steps.bind name value related)
  · exact coupledAt_fault steps placed related

/-! ## Indices and methods -/

theorem coupled_key (steps : coupling.Stepwise) {first second : Eval W TypedValue}
    (inside : coupling.Coupled level first second) :
    coupling.Coupled level (Indexer.key first) (Indexer.key second) := by
  apply coupled_get
  intro s t related
  rw [(steps.agree related).root]
  apply coupledAt_bind (coupled_inScope steps _ inside s t related)
  intro typed s' t' _ reached
  exact coupledAt_pure _ reached

/-- What follows a key may look at the heap that evaluating the key has left. -/
private theorem coupledAt_keyed (steps : coupling.Stepwise) {first second : Eval W TypedValue}
    (inside : coupling.Coupled level first second) {next next' : Value → State W → Eval W α}
    (related : coupling.states level s t)
    (after : ∀ key s' t', coupling.states level s' t' → s'.heap = t'.heap →
      coupling.CoupledAt level (next key s') (next' key t') s' t') :
    coupling.CoupledAt level (Indexer.key first >>= fun key => get >>= next key)
      (Indexer.key second >>= fun key => get >>= next' key) s t := by
  apply coupledAt_bind (coupled_key steps inside s t related)
  intro key s' t' _ reached
  apply coupledAt_get
  exact after key s' t' reached (steps.agree reached).heap

theorem coupled_indexer (steps : coupling.Stepwise) {first second : Eval W TypedValue}
    (inside : coupling.Coupled level first second) (placed : coupling.places a b) :
    coupling.Coupled level (Indexer.evaluate first a) (Indexer.evaluate second b) := by
  apply coupled_get
  intro s t related
  rw [(steps.agree related).current]
  apply coupledAt_keyed steps inside related
  intro key s' t' reached heap
  rw [heap]
  generalize t.current.value = target
  split
  case h_2 | h_3 | h_6 => exact coupledAt_orFault steps _ placed reached
  case h_7 _ _ id name => exact coupledAt_answer steps (Host.read id name) placed reached
  all_goals exact coupledAt_fault steps placed reached

theorem coupled_assign_indexer (steps : coupling.Stepwise) {first second : Eval W TypedValue}
    (inside : coupling.Coupled level first second) (placed : coupling.places a b)
    (value : TypedValue) :
    coupling.Coupled level (Indexer.assign first a value) (Indexer.assign second b value) := by
  apply coupled_get
  intro s t related
  rw [(steps.agree related).current]
  apply coupledAt_keyed steps inside related
  intro key s' t' reached heap
  rw [heap]
  generalize t.current.value = target
  split
  case h_2 | h_4 => exact coupledAt_change steps _ placed reached
  case h_5 _ _ id name => exact coupledAt_write steps id name _ placed reached
  all_goals exact coupledAt_fault steps placed reached

theorem coupled_isAssignable_indexer (steps : coupling.Stepwise) {first second : Eval W TypedValue}
    (inside : coupling.Coupled level first second) :
    coupling.Coupled level (Indexer.isAssignable first) (Indexer.isAssignable second) := by
  apply coupled_get
  intro s t related
  rw [(steps.agree related).current]
  apply coupledAt_keyed steps inside related
  intro key s' t' reached heap
  rw [heap]
  generalize t.current.value = target
  split
  case h_3 _ _ id name => exact coupled_host steps _ s' t' reached
  all_goals exact coupledAt_pure _ reached

omit [Host W] in
theorem coupled_values {firsts seconds : List (Eval W TypedValue)}
    (inside : List.Forall₂ (coupling.Coupled level) firsts seconds) :
    coupling.Coupled level (Method.values firsts) (Method.values seconds) := by
  induction inside with
  | nil => exact coupled_pure _
  | cons first others ih =>
    apply coupled_bind first
    intro typed
    apply coupled_bind ih
    intro values
    exact coupled_pure _

theorem coupled_arguments (steps : coupling.Stepwise) {firsts seconds : List (Eval W TypedValue)}
    (inside : List.Forall₂ (coupling.Coupled level) firsts seconds) :
    coupling.Coupled level (Method.arguments firsts) (Method.arguments seconds) := by
  unfold Method.arguments
  cases inside with
  | nil => exact coupled_pure _
  | cons first others =>
    apply coupled_get
    intro s t related
    rw [(steps.agree related).root]
    exact coupled_inScope steps _ (coupled_values (.cons first others)) s t related

theorem coupled_method (steps : coupling.Stepwise) (name : String)
    {firsts seconds : List (Eval W TypedValue)}
    (inside : List.Forall₂ (coupling.Coupled level) firsts seconds) (placed : coupling.places a b) :
    coupling.Coupled level (Method.evaluate name firsts a) (Method.evaluate name seconds b) := by
  apply coupled_get
  intro s t related
  rw [(steps.agree related).current]
  apply coupledAt_bind (coupled_arguments steps inside s t related)
  intro args s' t' _ reached
  apply coupledAt_get
  rw [(steps.agree reached).heap]
  split
  · next id _ => exact coupledAt_answer steps (Host.invoke id name args) placed reached
  · dsimp only
    split
    · exact coupledAt_pure _ reached
    · next fault failed =>
      exact coupledAt_fault steps placed reached (Method.ordinary_builtIn _ _ _ _ fault failed)

/-! ## Chains and nodes -/

theorem coupled_follow (steps : coupling.Stepwise) {x y : Bool} (moves : coupling.moves x y)
    {firsts seconds : List (Node W)}
    (inside : List.Forall₂ (coupling.ReadBy level) firsts seconds) (value : TypedValue) :
    coupling.Coupled level (Chain.follow x firsts value) (Chain.follow y seconds value) := by
  induction inside generalizing value with
  | nil => exact coupled_pure value
  | cons first others ih =>
    apply coupled_bind
    · exact coupled_inScope steps value (coupled_positioned steps moves first.placed first.evaluate)
    · exact ih

theorem coupled_read (steps : coupling.Stepwise) {x y : Bool} (moves : coupling.moves x y)
    {head head' : Node W} {middle middle' : List (Node W)} (first : coupling.ReadBy level head head')
    (inside : List.Forall₂ (coupling.ReadBy level) middle middle') :
    coupling.Coupled level (Chain.read x head middle) (Chain.read y head' middle') :=
  coupled_bind (coupled_positioned steps moves first.placed first.evaluate)
    (coupled_follow steps moves inside)

/-- Lists whose members belong together end together. -/
private theorem forall₂_last {R : α → β → Prop} {xs : List α} {ys : List β}
    (inside : List.Forall₂ R xs ys) : (xs = [] ∧ ys = []) ∨
      ∃ init init' last last', xs = init ++ [last] ∧ ys = init' ++ [last'] ∧
        List.Forall₂ R init init' ∧ R last last' := by
  induction inside with
  | nil => exact .inl ⟨rfl, rfl⟩
  | cons first others ih =>
    right
    rcases ih with ⟨rfl, rfl⟩ | ⟨init, init', last, last', rfl, rfl, before, ends⟩
    · exact ⟨[], [], _, _, rfl, rfl, .nil, first⟩
    · exact ⟨_ :: init, _ :: init', last, last', rfl, rfl, .cons first before, ends⟩

omit [Host W] in
/-- Nodes of which all operations end together can be read together. -/
theorem forall₂_readBy {firsts seconds : List (Node W)}
    (inside : List.Forall₂ (coupling.CoupledBy level) firsts seconds) :
    List.Forall₂ (coupling.ReadBy level) firsts seconds :=
  inside.imp fun _ _ alike => alike.toReadBy

/-- Operations on the last segments, when both chains are read up to it. -/
theorem coupled_atLast (steps : coupling.Stepwise) (writing : coupling.WritesAlike)
    {head head' : Node W} {tail tail' : List (Node W)} (first : coupling.CoupledBy level head head')
    (inside : List.Forall₂ (coupling.CoupledBy level) tail tail') {operation : Node W → Eval W α}
    (operated : ∀ {node node' : Node W}, coupling.CoupledBy level node node' →
      coupling.Coupled level (operation node) (operation node')) :
    coupling.Coupled level (Chain.atLast head tail operation)
      (Chain.atLast head' tail' operation) := by
  rcases forall₂_last inside with ⟨rfl, rfl⟩ | ⟨middle, middle', last, last', rfl, rfl, before, ends⟩
  · exact operated first
  · rw [Chain.atLast_concat, Chain.atLast_concat]
    apply coupled_get
    intro s t related
    have moves := writing level s t related
    have reads := coupled_read steps moves first.toReadBy (forall₂_readBy before)
    apply coupledAt_bind (reads s t related)
    intro target s' t' _ reached
    exact coupled_inScope steps target (coupled_positioned steps moves ends.placed (operated ends))
      s' t' reached

theorem coupled_evaluate_chain (steps : coupling.Stepwise) {head head' : Node W}
    {tail tail' : List (Node W)} (first : coupling.ReadBy level head head')
    (inside : List.Forall₂ (coupling.ReadBy level) tail tail') :
    coupling.Coupled level (Chain.evaluate head tail) (Chain.evaluate head' tail') := by
  cases inside with
  | nil => exact first.evaluate
  | cons next others => exact coupled_read steps steps.reading first (.cons next others)

theorem coupledBy_chain (steps : coupling.Stepwise) (writing : coupling.WritesAlike)
    (placed : coupling.places a b) {head head' : Node W} {tail tail' : List (Node W)}
    (first : coupling.CoupledBy level head head')
    (inside : List.Forall₂ (coupling.CoupledBy level) tail tail') :
    coupling.CoupledBy level (Chain.node head tail a) (Chain.node head' tail' b) where
  placed := placed
  evaluate := coupled_evaluate_chain steps first.toReadBy (forall₂_readBy inside)
  assign value := coupled_atLast steps writing first inside fun alike => alike.assign value
  isAssignable := coupled_atLast steps writing first inside fun alike => alike.isAssignable

theorem readBy_nested (steps : coupling.Stepwise) (admits : coupling.Admits level)
    {first second : Node W} (inside : coupling.ReadBy (level + 1) first second) :
    coupling.ReadBy level first.nested second.nested where
  placed := inside.placed
  evaluate := coupled_inNode steps admits inside.placed inside.evaluate

theorem coupledBy_nested (steps : coupling.Stepwise) (admits : coupling.Admits level)
    {first second : Node W} (inside : coupling.CoupledBy (level + 1) first second) :
    coupling.CoupledBy level first.nested second.nested where
  toReadBy := readBy_nested steps admits inside.toReadBy
  assign value := coupled_inNode steps admits inside.placed (inside.assign value)
  isAssignable := coupled_inNode steps admits inside.placed inside.isAssignable

theorem coupledBy_valueOnly (steps : coupling.Stepwise) (name : String)
    (placed : coupling.places a b) {first second : Eval W TypedValue}
    (inside : coupling.Coupled level first second) :
    coupling.CoupledBy level (.valueOnly name a first) (.valueOnly name b second) where
  placed := placed
  evaluate := inside
  assign _ := fun _ _ related => coupledAt_fault steps placed related
  isAssignable := coupled_pure false

theorem coupledBy_method (steps : coupling.Stepwise) (name : String) (placed : coupling.places a b)
    {args args' : List (Node W)} (inside : List.Forall₂ (coupling.ReadBy level) args args') :
    coupling.CoupledBy level
      (.valueOnly "a method call" a (Method.evaluate name (args.map (·.evaluate)) a))
      (.valueOnly "a method call" b (Method.evaluate name (args'.map (·.evaluate)) b)) := by
  apply coupledBy_valueOnly steps _ placed
  apply coupled_method steps name _ placed
  rw [List.forall₂_map_left_iff, List.forall₂_map_right_iff]
  exact inside.imp fun _ _ alike => alike.evaluate

theorem coupledBy_assignment (steps : coupling.Stepwise) (placed : coupling.places a b)
    {target target' value value' : Node W} (ofTarget : coupling.CoupledBy level target target')
    (ofValue : coupling.ReadBy level value value') :
    coupling.CoupledBy level (.assignment target value a) (.assignment target' value' b) := by
  apply coupledBy_valueOnly steps _ placed
  apply coupled_bind ofValue.evaluate
  intro result
  apply coupled_bind (ofTarget.assign result)
  intro _
  exact coupled_pure result

end

end Coupling

namespace Expr

section
variable [Host W] {coupling : Coupling W} {level : Nat}

/-- Members of two lists that match are related node by node if each matching pair is. -/
private theorem forall₂_nodes {related : Node W → Node W → Prop} {es others : List Expr}
    (inside : List.Forall₂ (Matches coupling.places) es others)
    (each : ∀ e ∈ es, ∀ other, e.Matches coupling.places other → related e.node other.node) :
    List.Forall₂ related (nodes es) (nodes others) := by
  rw [nodes_eq_map, nodes_eq_map, List.forall₂_map_left_iff, List.forall₂_map_right_iff]
  have both := (List.forall₂_and_left es others).mpr ⟨each, inside⟩
  exact both.imp fun e other members => members.1 other members.2

omit [Host W] in
/-- Where all operations end together anyway, evaluations do. -/
private theorem allowed_of_coupled {first second : Node W} (whole : coupling.CoupledBy level first second) :
    coupling.ReadBy level first second ∧
      (coupling.WritesAlike → coupling.CoupledBy level first second) :=
  ⟨whole.toReadBy, fun _ => whole⟩

open Coupling in
/-- Evaluations of two matching expressions end together if the errors of writing may be moved alike where
an assignment stands, and all operations on them do if these errors may be moved alike at all. -/
private theorem coupled_allowed (steps : coupling.Stepwise) {e other : Expr}
    (matching : e.Matches coupling.places other) (allowed : e.assigns = true → coupling.WritesAlike)
    (admits : coupling.AdmitsDown level e.height) :
    coupling.ReadBy level e.node other.node ∧
      (coupling.WritesAlike → coupling.CoupledBy level e.node other.node) := by
  induction e generalizing level other with
  | literal value span =>
    cases matching with
    | literal _ placed =>
      apply allowed_of_coupled
      apply coupledBy_nested steps (admits.here (height_pos _))
      exact coupledBy_valueOnly steps _ placed (coupled_pure _)
  | property name dotted span =>
    cases matching with
    | property _ _ _ placed =>
      apply allowed_of_coupled
      apply coupledBy_nested steps (admits.here (height_pos _))
      exact ⟨⟨placed, coupled_property steps name placed⟩, coupled_assign_property steps name placed,
        coupled_isAssignable_property steps name⟩
  | reference name span =>
    cases matching with
    | reference _ placed =>
      apply allowed_of_coupled
      apply coupledBy_nested steps (admits.here (height_pos _))
      exact ⟨⟨placed, coupled_variable steps name placed⟩, coupled_assign_variable steps name placed,
        coupled_pure _⟩
  | indexer index span ih =>
    cases matching with
    | indexer ofIndex placed =>
      apply allowed_of_coupled
      apply coupledBy_nested steps (admits.here (height_pos _))
      have inside := (ih ofIndex allowed (admits.below (by simp [height]))).1.evaluate
      exact ⟨⟨placed, coupled_indexer steps inside placed⟩, coupled_assign_indexer steps inside placed,
        coupled_isAssignable_indexer steps inside⟩
  | method name args dotted span ih =>
    cases matching with
    | method _ _ _ ofArgs placed =>
      apply allowed_of_coupled
      apply coupledBy_nested steps (admits.here (height_pos _))
      apply coupledBy_method steps name placed
      refine forall₂_nodes ofArgs fun arg member other matching => ?_
      have below : arg.height < (method name args dotted span).height := by
        have inside := height_le_heights member
        rw [height]
        omega
      exact (ih arg member matching (fun within => allowed (assigns_of_arg member within))
        (admits.below below)).1
  | assign target value span ihTarget ihValue =>
    cases matching with
    | assign ofTarget ofValue placed =>
      have writing := allowed rfl
      apply allowed_of_coupled
      apply coupledBy_nested steps (admits.here (height_pos _))
      apply coupledBy_assignment steps placed
      · exact (ihTarget ofTarget (fun _ => writing) (admits.below (by rw [height]; omega))).2 writing
      · exact (ihValue ofValue (fun _ => writing) (admits.below (by rw [height]; omega))).1
  | chain head tail span ihHead ihTail =>
    cases matching with
    | chain ofHead ofTail placed =>
      have here := admits.here (height_pos _)
      have first := ihHead ofHead (fun within => allowed (assigns_of_segment List.mem_cons_self within))
        (admits.below (by rw [height]; omega))
      have others (segment : Expr) (member : segment ∈ tail) (other : Expr)
          (matching : segment.Matches coupling.places other) := by
        have below : segment.height < (chain head tail span).height := by
          have inside := height_le_heights member
          rw [height]
          omega
        exact ihTail segment member matching
          (fun within => allowed (assigns_of_segment (List.mem_cons_of_mem _ member) within))
          (admits.below below)
      constructor
      · apply readBy_nested steps here
        refine ⟨placed, coupled_evaluate_chain steps first.1 (forall₂_nodes ofTail ?_)⟩
        exact fun segment member other matching => (others segment member other matching).1
      · intro writing
        apply coupledBy_nested steps here
        refine coupledBy_chain steps writing placed (first.2 writing) (forall₂_nodes ofTail ?_)
        exact fun segment member other matching => (others segment member other matching).2 writing

/-- All operations on two matching expressions end together wherever they start together, if nodes may be
entered as far down as the expressions reach. -/
theorem coupled_matches (steps : coupling.Stepwise) (writing : coupling.WritesAlike) {e other : Expr}
    (matching : e.Matches coupling.places other) (admits : coupling.AdmitsDown level e.height) :
    coupling.CoupledBy level e.node other.node :=
  (coupled_allowed steps matching (fun _ => writing) admits).2 writing

/-- All operations on an expression end together wherever they start together, if nodes may be entered
as far down as the expression reaches. -/
theorem coupled (steps : coupling.Stepwise) (writing : coupling.WritesAlike)
    (placed : ∀ span, coupling.places span span) (e : Expr)
    (admits : coupling.AdmitsDown level e.height) : coupling.CoupledBy level e.node e.node :=
  coupled_matches steps writing (matches_refl placed e) admits

/-- Evaluations of an expression without assignments end together wherever they start together, however the
errors of writing are moved. -/
theorem coupled_reads (steps : coupling.Stepwise) (placed : ∀ span, coupling.places span span) {e : Expr}
    (free : e.assigns = false) (admits : coupling.AdmitsDown level e.height) :
    coupling.ReadBy level e.node e.node :=
  (coupled_allowed steps (matches_refl placed e) (fun inside => absurd inside (by simp [free])) admits).1

end

end Expr

end DotChain
