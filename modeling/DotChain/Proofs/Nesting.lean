import DotChain.Proofs.Balance
import DotChain.Proofs.Coupling

/-!
# The limit of nesting

A limit makes some runs fail and is otherwise not noticed. Main statement: `limit_exact`, a run under a
limit either fails because nodes nest too deep or is the run without a limit; it does not so fail where
the tree fits under the limit, and a run that reaches a value fits.

The first half couples the run under the limit with the run without (`Coupling.unlimited`). For the
second half, a run that succeeds has entered every node of the tree (`Expr.needs`).
-/

namespace DotChain

variable {W α β : Type}

/-- The same state under another limit, or under none. -/
def State.withLimit (state : State W) (limit : Option Nat) : State W :=
  { state with config := { state.config with limit := limit } }

/-- Whether a failure is that nodes nest deeper than a limit. -/
def Failure.Exhausts (limit : Nat) : Failure → Prop
  | eval error => error.fault = .recursionLimit limit
  | host _ => False

theorem Failure.exhausts_fault (limit : Nat) (span : Span) :
    (Failure.fault (.recursionLimit limit) span).Exhausts limit := rfl

/-- Whether a failure is another one than that nodes nest too deep. -/
def Failure.Ordinary : Failure → Prop
  | eval error => error.fault.Ordinary
  | host _ => True

theorem Failure.Ordinary.not_exhausts {failure : Failure} (ordinary : failure.Ordinary) (limit : Nat) :
    ¬ failure.Exhausts limit := by
  intro exhausts
  cases failure with
  | eval error =>
    have same : error.fault = .recursionLimit limit := exhausts
    rw [Failure.Ordinary, same] at ordinary
    exact ordinary
  | host error => exact exhausts

theorem Failure.Exhausts.movedTo {failure : Failure} {limit : Nat} (exhausts : failure.Exhausts limit)
    (span : Span) : (failure.movedTo span).Exhausts limit := by
  cases failure with
  | eval error => exact exhausts
  | host error => exact exhausts

theorem Failure.Ordinary.movedTo {failure : Failure} (ordinary : failure.Ordinary) (span : Span) :
    (failure.movedTo span).Ordinary := by
  cases failure with
  | eval error => exact ordinary
  | host error => trivial

/-- A computation fails because nodes nest deeper than a limit. -/
def Eval.Exhausts (limit : Nat) (action : Eval W α) (state : State W) : Prop :=
  ∃ failure, (action.outcome state).1 = .error failure ∧ failure.Exhausts limit

/-- A computation succeeds. -/
def Eval.Succeeds (action : Eval W α) (state : State W) : Prop :=
  ∃ value, (action.outcome state).1 = .ok value

/-- What a limit does to a computation that nests so many levels deep. -/
structure Eval.Limited (limit levels : Nat) (action : Eval W α) (state : State W) : Prop where
  /-- The limit ends the run, or the run is the one without a limit. -/
  unnoticed : Eval.Exhausts limit action (state.withLimit (some limit)) ∨
    action.outcome (state.withLimit (some limit)) =
      ((action.outcome (state.withLimit none)).1,
        (action.outcome (state.withLimit none)).2.withLimit (some limit))
  /-- Where there is room for all levels, no limit ends the run. -/
  roomy : state.depth + levels ≤ limit → ∀ other,
    ¬ Eval.Exhausts other action (state.withLimit (some limit))

/-! ## The run without a limit -/

/-- A state gets its limit back. -/
private theorem withLimit_back {state : State W} {limit : Option Nat}
    (limited : state.config.limit = limit) : (state.withLimit none).withLimit limit = state := by
  subst limited
  rfl

theorem State.exhausted?_eq_none_of_lt {state : State W} {limit : Nat}
    (limited : state.config.limit = some limit) (room : state.depth < limit) :
    state.exhausted? = none := by
  unfold State.exhausted?
  rw [limited]
  exact if_neg (Nat.not_le_of_lt room)

theorem State.exhausted?_eq_some_of_le {state : State W} {limit : Nat}
    (limited : state.config.limit = some limit) (full : limit ≤ state.depth) :
    state.exhausted? = some limit := by
  unfold State.exhausted?
  rw [limited]
  exact if_pos full

theorem State.limit_of_exhausted? {state : State W} {limit : Nat}
    (full : state.exhausted? = some limit) : state.config.limit = some limit := by
  unfold State.exhausted? at full
  split at full
  · next other limited =>
    split at full
    · rw [limited]
      exact full
    · cases full
  · cases full

/-- A run under a limit beside the run without one. -/
def Coupling.unlimited (W : Type) (limit : Nat) (excuses : Failure → Prop) : Coupling W where
  states level s t := s.depth = level ∧ s.config.limit = some limit ∧ t = s.withLimit none
  failures f g := f = g ∧ f.Ordinary
  excuses := excuses
  places := Eq

theorem Coupling.unlimited_stepwise [Host W] {limit : Nat} {excuses : Failure → Prop}
    (moved : ∀ failure span, excuses failure → excuses (failure.movedTo span)) :
    (Coupling.unlimited W limit excuses).Stepwise where
  agree := by
    rintro level s t ⟨_, _, rfl⟩
    exact ⟨rfl, rfl, rfl, rfl⟩
  push value := by
    rintro ⟨deep, limited, rfl⟩
    exact ⟨deep, limited, rfl⟩
  cut := by
    rintro level s t s' t' ⟨_, _, rfl⟩ ⟨deep, limited, rfl⟩
    exact ⟨deep, limited, rfl⟩
  enter := by
    rintro level s t ⟨rfl, limited, rfl⟩
    exact ⟨rfl, limited, rfl⟩
  leave := by
    rintro level s t ⟨deep, limited, rfl⟩
    refine ⟨?_, limited, rfl⟩
    show s.depth - 1 = level
    omega
  bind name value := by
    rintro ⟨deep, limited, rfl⟩
    exact ⟨deep, limited, rfl⟩
  store new := by
    rintro ⟨deep, limited, rfl⟩
    exact ⟨deep, limited, rfl⟩
  fault := by
    rintro fault a b ordinary rfl
    exact ⟨rfl, ordinary⟩
  host error := ⟨rfl, trivial⟩
  moved := by
    rintro f g x y a b rfl rfl ⟨rfl, ordinary⟩
    cases x with
    | false => exact ⟨rfl, ordinary⟩
    | true => exact ⟨rfl, ordinary.movedTo a⟩
  excused_moved := moved _
  reading := rfl

theorem Coupling.unlimited_writesAlike {limit : Nat} {excuses : Failure → Prop} :
    (Coupling.unlimited W limit excuses).WritesAlike := by
  rintro level s t ⟨_, _, rfl⟩
  rfl

/-- Below the limit, the run under the limit enters nodes as the other one does. -/
private theorem admits_below {limit level : Nat} (excuses : Failure → Prop) (room : level < limit) :
    (Coupling.unlimited W limit excuses).Admits level := by
  rintro s t a b ⟨rfl, limited, rfl⟩ _
  exact .inl ⟨State.exhausted?_eq_none_of_lt limited room, rfl⟩

/-- Where the limit is an excuse, nothing is asked of the other run at the limit. -/
private theorem admits_excused (limit level : Nat) :
    (Coupling.unlimited W limit (·.Exhausts limit)).Admits level := by
  by_cases room : level < limit
  · exact admits_below _ room
  · rintro s t a b ⟨rfl, limited, rfl⟩ _
    right
    exact ⟨limit, State.exhausted?_eq_some_of_le limited (Nat.le_of_not_lt room), .inl rfl⟩

/-- Both couplings, with the limit as an excuse and without one, start from one state under the limit
and under none. -/
private theorem limited_of_coupled {limit levels : Nat} {action : Eval W α} (state : State W)
    (excused : (Coupling.unlimited W limit (·.Exhausts limit)).Coupled state.depth action action)
    (unexcused : state.depth + levels ≤ limit →
      (Coupling.unlimited W limit fun _ => False).Coupled state.depth action action) :
    action.Limited limit levels state := by
  constructor
  · have ended := excused (state.withLimit (some limit)) (state.withLimit none) ⟨rfl, rfl, rfl⟩
    unfold Coupling.CoupledAt at ended
    unfold Eval.Exhausts
    generalize action.outcome (state.withLimit (some limit)) = bounded at ended ⊢
    generalize action.outcome (state.withLimit none) = free at ended ⊢
    cases ended with
    | returned value reached =>
      obtain ⟨_, limited, rfl⟩ := reached
      right
      rw [withLimit_back limited]
    | failed alike reached =>
      obtain ⟨rfl, _⟩ := alike
      obtain ⟨_, limited, rfl⟩ := reached
      right
      rw [withLimit_back limited]
    | excused excuse s other => exact .inl ⟨_, rfl, excuse⟩
  · rintro room other ⟨failure, failed, exhausts⟩
    have ended := unexcused room (state.withLimit (some limit)) (state.withLimit none) ⟨rfl, rfl, rfl⟩
    unfold Coupling.CoupledAt at ended
    generalize action.outcome (state.withLimit (some limit)) = bounded at ended failed
    generalize action.outcome (state.withLimit none) = free at ended
    cases ended with
    | returned value reached => cases failed
    | failed alike reached =>
      obtain rfl := Except.error.inj failed
      exact alike.2.not_exhausts other exhausts
    | excused excuse s other => exact excuse

private theorem unlimited_coupled [Host W] (limit : Nat) (e : Expr) (level : Nat) :
    (Coupling.unlimited W limit (·.Exhausts limit)).CoupledBy level e.node e.node :=
  e.coupled (Coupling.unlimited_stepwise fun _ span exhausts => exhausts.movedTo span)
    Coupling.unlimited_writesAlike (fun _ => rfl) fun deep _ _ => admits_excused limit deep

private theorem unlimited_coupled_below [Host W] {limit : Nat} (e : Expr) {level : Nat}
    (room : level + e.height ≤ limit) :
    (Coupling.unlimited W limit fun _ => False).CoupledBy level e.node e.node := by
  apply e.coupled (Coupling.unlimited_stepwise fun _ _ excuse => excuse)
    Coupling.unlimited_writesAlike fun _ => rfl
  intro deep _ high
  exact admits_below _ (by omega)

/-! ## What a success needs -/

/-- If a computation succeeds, its limit leaves room for so many levels. -/
def Eval.Needs (levels : Nat) (action : Eval W α) (state : State W) : Prop :=
  ∀ limit, state.config.limit = some limit → action.Succeeds state → levels ≤ limit - state.depth

namespace Eval

section
variable {state : State W} {levels : Nat}

theorem needs_nothing (action : Eval W α) : action.Needs 0 state :=
  fun _ _ _ => Nat.zero_le _

theorem needs_of_fails {action : Eval W α} {failure : Failure}
    (failed : (action.outcome state).1 = .error failure) : action.Needs levels state := by
  rintro limit _ ⟨value, succeeded⟩
  rw [failed] at succeeded
  cases succeeded

theorem needs_max {fewer : Nat} {action : Eval W α} (some : action.Needs levels state)
    (others : action.Needs fewer state) : action.Needs (max levels fewer) state :=
  fun limit limited succeeds => Nat.max_le.mpr ⟨some limit limited succeeds, others limit limited succeeds⟩

/-- A success of several steps is a success of the first one, and then of the others. -/
theorem succeeds_bind {first : Eval W α} {next : α → Eval W β}
    (succeeds : Succeeds (first >>= next) state) :
    ∃ value reached, first.outcome state = (.ok value, reached) ∧ (next value).Succeeds reached := by
  obtain ⟨result, ended⟩ := succeeds
  rw [outcome_bind] at ended
  rcases run : first.outcome state with ⟨_ | value, reached⟩
  · rw [run] at ended
    cases ended
  · rw [run] at ended
    exact ⟨value, reached, rfl, result, ended⟩

theorem needs_first {first : Eval W α} {next : α → Eval W β} (needs : first.Needs levels state) :
    Needs levels (first >>= next) state := by
  intro limit limited succeeds
  obtain ⟨value, reached, run, _⟩ := succeeds_bind succeeds
  exact needs limit limited ⟨value, by rw [run]⟩

/-- Steps that keep the balance hand their room on. -/
theorem needs_next [Host W] {first : Eval W α} {next : α → Eval W β}
    (kept : (Law.balance W).Kept first)
    (needs : ∀ value reached, (next value).Needs levels reached) :
    Needs levels (first >>= next) state := by
  intro limit limited succeeds
  obtain ⟨value, reached, run, others⟩ := succeeds_bind succeeds
  have balanced : state.Balanced (first.outcome state).2 := (kept state).leads
  rw [run] at balanced
  rw [← balanced.depth]
  rw [← balanced.config] at limited
  exact needs value reached limit limited others

theorem needs_get {next : State W → Eval W β} (needs : (next state).Needs levels state) :
    Needs levels (get >>= next) state := by
  intro limit limited succeeds
  obtain ⟨value, reached, run, others⟩ := succeeds_bind succeeds
  cases run
  exact needs limit limited others

theorem needs_inScope {value : TypedValue} {body : Eval W α}
    (needs : body.Needs levels (state.push value)) : Needs levels (inScope value body) state :=
  needs

theorem needs_positioned {correct : Bool} {span : Span} {body : Eval W α}
    (needs : body.Needs levels state) : Needs levels (positioned correct span body) state := by
  rintro limit limited ⟨value, succeeded⟩
  rw [outcome_positioned] at succeeded
  cases run : (body.outcome state).1 with
  | error failure =>
    rw [run] at succeeded
    cases succeeded
  | ok result => exact needs limit limited ⟨result, run⟩

/-- A node that is entered takes one level of the room. -/
theorem needs_inNode {span : Span} {body : Eval W α} (needs : body.Needs levels state.enter) :
    Needs (levels + 1) (inNode span body) state := by
  rintro limit limited ⟨value, succeeded⟩
  rw [outcome_inNode] at succeeded
  by_cases room : state.depth < limit
  · rw [State.exhausted?_eq_none_of_lt limited room] at succeeded
    have inside : levels ≤ limit - (state.depth + 1) := needs limit limited ⟨value, succeeded⟩
    omega
  · rw [State.exhausted?_eq_some_of_le limited (Nat.le_of_not_lt room)] at succeeded
    cases succeeded

end

end Eval

section
variable [Host W]

private theorem kept_expr (e : Expr) : (Law.balance W).KeptBy e.node := e.keeps Law.balance_writing

private theorem read_nodes (es : List Expr) :
    ∀ node ∈ (es.map Expr.node : List (Node W)), (Law.balance W).ReadBy node := by
  intro node member
  obtain ⟨e, _, rfl⟩ := List.mem_map.mp member
  exact (kept_expr e).toReadBy

omit [Host W] in
theorem needs_key {levels : Nat} {index : Eval W TypedValue}
    (needs : ∀ state, index.Needs levels state) (state : State W) :
    (Indexer.key index).Needs levels state :=
  Eval.needs_get (Eval.needs_first (Eval.needs_inScope (needs _)))

theorem needs_values {args : List Expr}
    (each : ∀ arg ∈ args, ∀ state : State W, arg.evaluate.Needs arg.height state) (state : State W) :
    (Method.values (args.map Expr.evaluate)).Needs (Expr.heights args) state := by
  induction args generalizing state with
  | nil => exact Eval.needs_nothing _
  | cons first rest ih =>
    obtain ⟨ofFirst, ofRest⟩ := List.forall_mem_cons.mp each
    apply Eval.needs_max
    · exact Eval.needs_first (ofFirst state)
    · apply Eval.needs_next (kept_expr first).evaluate
      intro typed reached
      exact Eval.needs_first (ih ofRest reached)

theorem needs_arguments {args : List Expr}
    (each : ∀ arg ∈ args, ∀ state : State W, arg.evaluate.Needs arg.height state) (state : State W) :
    (Method.arguments (args.map Expr.evaluate)).Needs (Expr.heights args) state := by
  cases args with
  | nil => exact Eval.needs_nothing _
  | cons first rest => exact Eval.needs_get (Eval.needs_inScope (needs_values each _))

theorem needs_follow (correct : Bool) {segments : List Expr}
    (each : ∀ segment ∈ segments, ∀ state : State W, segment.evaluate.Needs segment.height state)
    (value : TypedValue) (state : State W) :
    (Chain.follow correct (segments.map Expr.node) value).Needs (Expr.heights segments) state := by
  induction segments generalizing value state with
  | nil => exact Eval.needs_nothing _
  | cons segment rest ih =>
    obtain ⟨ofFirst, ofRest⟩ := List.forall_mem_cons.mp each
    have kept := kept_expr (W := W) segment
    apply Eval.needs_max
    · exact Eval.needs_first (Eval.needs_inScope (Eval.needs_positioned (ofFirst _)))
    · apply Eval.needs_next (Law.kept_inScope Law.balance_writing.toReading value
        (Law.kept_positioned Law.balance_writing.toReading correct trivial kept.evaluate))
      intro next reached
      exact ih ofRest next reached

theorem needs_read (correct : Bool) {head : Expr} {middle : List Expr}
    (ofHead : ∀ state : State W, head.evaluate.Needs head.height state)
    (each : ∀ segment ∈ middle, ∀ state : State W, segment.evaluate.Needs segment.height state)
    (state : State W) :
    (Chain.read correct head.node (middle.map Expr.node)).Needs
      (max head.height (Expr.heights middle)) state := by
  apply Eval.needs_max
  · exact Eval.needs_first (Eval.needs_positioned (ofHead state))
  · apply Eval.needs_next (Law.kept_positioned Law.balance_writing.toReading correct trivial
      (kept_expr head).evaluate)
    intro first reached
    exact needs_follow correct each first reached

/-- A chain that is read up to its last segment and succeeds there has entered all of them. -/
theorem needs_atLast {head : Expr} {tail : List Expr}
    (ofHead : ∀ state : State W, head.evaluate.Needs head.height state)
    (each : ∀ segment ∈ tail, ∀ state : State W, segment.evaluate.Needs segment.height state)
    {operation : Node W → Eval W α}
    (operated : ∀ segment ∈ head :: tail, ∀ state, (operation segment.node).Needs segment.height state)
    (state : State W) :
    (Chain.atLast head.node (tail.map Expr.node) operation).Needs
      (max head.height (Expr.heights tail)) state := by
  obtain ⟨ofHead', ofTail'⟩ := List.forall_mem_cons.mp operated
  rcases List.eq_nil_or_concat tail with rfl | ⟨middle, last, split⟩
  · rw [Expr.heights, Nat.max_zero]
    exact ofHead' state
  · rw [List.concat_eq_append] at split
    subst split
    rw [List.map_append, List.map_singleton, Chain.atLast_concat, Expr.heights_concat, ← Nat.max_assoc]
    have read := needs_read (W := W) state.config.correctsWrites ofHead
      (fun segment member => each segment (List.mem_append_left _ member)) state
    apply Eval.needs_get
    apply Eval.needs_max
    · exact Eval.needs_first read
    · apply Eval.needs_next (Law.kept_read Law.balance_writing.toReading _ (kept_expr head).toReadBy
        (read_nodes middle))
      intro target reached
      apply Eval.needs_inScope
      exact Eval.needs_positioned (ofTail' last (List.mem_append_right _ List.mem_cons_self) _)

/-- An expression that evaluates or is stored to successfully has entered all of its nodes. -/
theorem Expr.needs (e : Expr) (state : State W) : e.evaluate.Needs e.height state ∧
    ∀ value, (e.store value).Needs e.height state := by
  induction e generalizing state with
  | literal value span =>
    constructor
    · exact Eval.needs_inNode (Eval.needs_nothing _)
    · intro value
      exact Eval.needs_inNode (Eval.needs_nothing _)
  | property name dotted span =>
    constructor
    · exact Eval.needs_inNode (Eval.needs_nothing _)
    · intro value
      exact Eval.needs_inNode (Eval.needs_nothing _)
  | reference name span =>
    constructor
    · exact Eval.needs_inNode (Eval.needs_nothing _)
    · intro value
      exact Eval.needs_inNode (Eval.needs_nothing _)
  | indexer index span ih =>
    have key := needs_key fun state => (ih state).1
    constructor
    · exact Eval.needs_inNode (Eval.needs_get (Eval.needs_first (key _)))
    · intro value
      exact Eval.needs_inNode (Eval.needs_get (Eval.needs_first (key _)))
  | method name args dotted span ih =>
    constructor
    · apply Eval.needs_inNode
      rw [nodes_eq_map, List.map_map]
      exact Eval.needs_get (Eval.needs_first
        (needs_arguments (fun arg member state => (ih arg member state).1) _))
    · intro value
      exact Eval.needs_inNode (Eval.needs_of_fails rfl)
  | assign target value span ofTarget ofValue =>
    constructor
    · apply Eval.needs_inNode
      apply Eval.needs_max
      · apply Eval.needs_next (kept_expr value).evaluate
        intro result reached
        exact Eval.needs_first ((ofTarget reached).2 result)
      · exact Eval.needs_first (ofValue _).1
    · intro value
      exact Eval.needs_inNode (Eval.needs_of_fails rfl)
  | chain head tail span ofHead ofTail =>
    have headEvaluates : ∀ state : State W, head.evaluate.Needs head.height state :=
      fun state => (ofHead state).1
    have tailEvaluates : ∀ segment ∈ tail, ∀ state : State W,
        segment.evaluate.Needs segment.height state :=
      fun segment member state => (ofTail segment member state).1
    constructor
    · apply Eval.needs_inNode
      change Eval.Needs _ (Chain.evaluate head.node (nodes tail)) _
      rw [nodes_eq_map]
      cases tail with
      | nil =>
        rw [heights, Nat.max_zero]
        exact headEvaluates _
      | cons next rest => exact needs_read true headEvaluates tailEvaluates _
    · intro value
      apply Eval.needs_inNode
      change Eval.Needs _ (Chain.atLast head.node (nodes tail) (·.assign value)) _
      rw [nodes_eq_map]
      apply needs_atLast headEvaluates tailEvaluates
      intro segment member state
      rcases List.mem_cons.mp member with rfl | later
      · exact (ofHead state).2 value
      · exact (ofTail segment later state).2 value

/-! ## The limit is exact -/

/-- Under a limit, an operation on an expression either fails because nodes nest too deep or is the
operation without a limit, and it does not so fail where the height of the tree leaves room. An expression
that has a value without a limit has one under the limit exactly where there is room for its height. -/
theorem limit_exact (e : Expr) (value : TypedValue) (limit : Nat) (state : State W) :
    e.evaluate.Limited limit e.height state ∧
    (e.store value).Limited limit e.height state ∧
    e.isAssignable.Limited limit e.height state ∧
    (e.evaluate.Succeeds (state.withLimit none) →
      (e.evaluate.Succeeds (state.withLimit (some limit)) ↔ state.depth + e.height ≤ limit)) := by
  have excused := unlimited_coupled (W := W) limit e state.depth
  have unexcused (room : state.depth + e.height ≤ limit) := unlimited_coupled_below (W := W) e room
  have evaluation : e.evaluate.Limited limit e.height state :=
    limited_of_coupled state excused.evaluate fun room => (unexcused room).evaluate
  refine ⟨evaluation,
    limited_of_coupled state (excused.assign value) fun room => (unexcused room).assign value,
    limited_of_coupled state excused.isAssignable fun room => (unexcused room).isAssignable, ?_⟩
  rintro ⟨result, free⟩
  constructor
  · intro succeeds
    have needed : e.height ≤ limit - state.depth :=
      (e.needs (state.withLimit (some limit))).1 limit rfl succeeds
    have some := e.height_pos
    omega
  · intro room
    rcases evaluation.unnoticed with exhausts | same
    · exact absurd exhausts (evaluation.roomy room limit)
    · refine ⟨result, ?_⟩
      rw [same]
      exact free

end

end DotChain
