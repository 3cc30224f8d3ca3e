import DotChain.Proofs.Grammar
import DotChain.Proofs.Provenance

/-!
# Reading back what was stored

What was stored through a path is what the path reads afterwards. Main statement: `read_after_write`. The
path is read a second time in a heap in which one place has changed. Where no container is inside itself,
the path passes through that place only at its end (`Path.walk?_store?`), whatever containers are shared and
even if the value that was stored closes a cycle.

What a path reads is split in two: it reads what its steps lead to from where it begins (`Expr.IsPath.readsAlong`),
and the steps are followed in the heap alone.
-/

namespace DotChain

open DotChain.Path (Step walk?)

variable {W : Type}

/-- No container is inside itself, as far as it is found in a state. -/
def State.Acyclic (state : State W) : Prop :=
  ∀ value, state.Reaches value → ¬Relation.TransGen state.heap.Contains value value

/-- Containers that have less of some measure than those they are in are not inside themselves. -/
theorem State.acyclic_of_rank {state : State W} (rank : Value → Nat)
    (falls : ∀ source value, state.heap.Contains source value → rank value < rank source) : state.Acyclic := by
  intro value _ cycle
  have less {other : Value} (inside : Relation.TransGen state.heap.Contains value other) :
      rank other < rank value := by
    induction inside with
    | single contains => exact falls _ _ contains
    | tail _ contains ih => exact Nat.lt_trans (falls _ _ contains) ih
  exact Nat.lt_irrefl _ (less cycle)

/-! ## Steps in a heap -/

namespace Path

variable {heap later : Heap} {context : Value} {first result : TypedValue} {step : Step} {steps : List Step}

/-- A step reads what a container contains, or a length or a character. -/
theorem Step.contains_of_read? (read : step.read? heap context = some result) :
    heap.Contains context result.value ∨ result.value.IsScalar := by
  cases step with
  | member name quoted =>
    cases context with
    | object id =>
      obtain ⟨field, found, rfl⟩ := Option.map_eq_some_iff.mp read
      rw [Heap.typedField_value]
      exact .inl (.field found)
    | list id | text text =>
      cases quoted with
      | false =>
        obtain ⟨length, _, rfl⟩ := Option.map_eq_some_iff.mp read
        exact .inr (Value.isScalar_ofLength length)
      | true => cases read
    | _ => cases quoted <;> cases read
  | item index =>
    cases context with
    | list id =>
      obtain ⟨item, found, rfl⟩ := Option.map_eq_some_iff.mp read
      obtain ⟨position, _, there⟩ := Option.bind_eq_some_iff.mp found
      exact .inl (.item (List.mem_of_getElem? there))
    | text text =>
      obtain ⟨c, _, rfl⟩ := Option.map_eq_some_iff.mp read
      exact .inr (Value.isScalar_text _)
    | _ => cases read

/-- A step stores in a container. -/
theorem Step.container_of_store? {new : Value} (stored : step.store? heap new context = some later) :
    ∃ container : Container, context = container.value := by
  obtain ⟨id, _, rfl, _⟩ | ⟨id, _, rfl, _⟩ := Step.puts_of_store? stored
  · exact ⟨.list id, rfl⟩
  · exact ⟨.object id, rfl⟩

theorem walk?_append (heap : Heap) (steps more : List Step) (first : TypedValue) :
    walk? heap (steps ++ more) first = (walk? heap steps first).bind (walk? heap more) := by
  induction steps generalizing first with
  | nil => rfl
  | cons step rest ih =>
    rw [List.cons_append, walk?, walk?, Option.bind_assoc]
    exact congrArg _ (funext ih)

/-- Steps lead to what a value reaches, or end in a scalar. -/
theorem reaches_of_walk? (walked : walk? heap steps first = some result) :
    heap.Reaches first.value result.value ∨ result.value.IsScalar := by
  induction steps generalizing first with
  | nil =>
    obtain rfl := Option.some.inj walked
    exact .inl .refl
  | cons step rest ih =>
    obtain ⟨next, read, walked⟩ := Option.bind_eq_some_iff.mp walked
    obtain reaches | scalar := ih walked
    · obtain contains | scalar := Step.contains_of_read? read
      · exact .inl (.head contains reaches)
      · rw [Heap.eq_of_reaches_scalar scalar reaches]
        exact .inr scalar
    · exact .inr scalar

/-- Steps lead to no object of an application from where there is none below. -/
theorem hostless_of_walk? (hostless : ∀ id, ¬heap.Reaches first.value (.host id))
    (walked : walk? heap steps first = some result) (id : HostId) : ¬heap.Reaches result.value (.host id) := by
  intro below
  obtain reaches | scalar := reaches_of_walk? walked
  · exact hostless id (reaches.trans below)
  · rw [← Heap.eq_of_reaches_scalar scalar below] at scalar
    exact scalar

/-- Steps that end at a value from which a container is reached lead to the same value after something was
stored in that container, if no container is inside itself: before they end they pass by the container, since
it would be inside itself if they passed through it. -/
theorem walk?_store? {action : Step} {new : Value} {container : Container}
    (stored : action.store? heap new container.value = some later)
    (acyclic : ∀ value, heap.Reaches first.value value → ¬Relation.TransGen heap.Contains value value)
    (walked : walk? heap steps first = some result) (above : heap.Reaches result.value container.value) :
    walk? later steps first = some result := by
  induction steps generalizing first with
  | nil => exact walked
  | cons step rest ih =>
    obtain ⟨next, read, walked⟩ := Option.bind_eq_some_iff.mp walked
    have below : heap.Reaches next.value container.value := by
      obtain reaches | scalar := reaches_of_walk? walked
      · exact reaches.trans above
      · exact absurd (Heap.eq_of_reaches_scalar scalar above ▸ scalar) container.not_scalar
    have contains : heap.Contains first.value next.value := by
      obtain contains | scalar := Step.contains_of_read? read
      · exact contains
      · exact absurd (Heap.eq_of_reaches_scalar scalar below ▸ scalar) container.not_scalar
    have apart : first.value ≠ container.value := by
      intro same
      have cycle : Relation.TransGen heap.Contains first.value first.value :=
        Relation.TransGen.head' contains (same ▸ below)
      exact acyclic first.value .refl cycle
    rw [walk?, Step.read?_store?_other stored apart, read, Option.bind_some]
    exact ih (fun value reaches => acyclic value (.head contains reaches)) walked

end Path

/-! ## What paths read -/

/-- The expressions that are variables, steps, and chains of steps behind such an expression. -/
inductive Expr.IsPath : Expr → Prop where
  | reference (name : String) (span : Span) : IsPath (.reference name span)
  | step {e : Expr} (isStep : e.IsStep) : IsPath e
  | chain {head : Expr} {tail : List Expr} {span : Span} (ofHead : IsPath head)
    (ofTail : ∀ e ∈ tail, e.IsStep) : IsPath (.chain head tail span)

/-- The value with which a path begins: that of a variable, or the active context. -/
def State.origin? (state : State W) : Option String → Option TypedValue
  | none => some state.current
  | some name =>
    if name = Variable.this then some state.current
    else if name = Variable.root then some state.root
    else state.bindings.get? name

theorem State.origin?_congr {state other : State W} (root : other.root = state.root)
    (contexts : other.contexts = state.contexts) (bindings : other.bindings = state.bindings)
    (name : Option String) : other.origin? name = state.origin? name := by
  have current : other.current = state.current := by rw [State.current, State.current, contexts, root]
  cases name with
  | none => exact congrArg some current
  | some name => rw [origin?, origin?, current, root, bindings]

theorem State.entry_origin? {state : State W} {name : Option String} {first : TypedValue}
    (begins : state.origin? name = some first) : state.Entry first := by
  cases name with
  | none =>
    obtain rfl := Option.some.inj begins
    exact state.entry_current
  | some name =>
    rw [origin?] at begins
    split at begins
    · obtain rfl := Option.some.inj begins
      exact state.entry_current
    · split at begins
      · obtain rfl := Option.some.inj begins
        exact .root
      · exact .binding begins

theorem State.Hostless.enter {state : State W} (hostless : state.Hostless) : state.enter.Hostless := by
  rintro id ⟨entry, there, reaches⟩
  refine hostless id ⟨entry, ?_, reaches⟩
  cases there with
  | root => exact .root
  | binding bound => exact .binding bound
  | context active => exact .context active

section
variable [Host W] {state other final : State W} {result : TypedValue}

/-- In every state in which nodes may nest as deep as in a given one, a computation with an argument reads
what steps lead to from the argument. -/
def Follows (action : TypedValue → Eval W TypedValue) (state : State W) (steps : List Step) : Prop :=
  ∀ (other : State W) (first result : TypedValue), other.AsDeep state →
    walk? other.heap steps first = some result →
    ∃ last, (action first).outcome other = (.ok result, last) ∧ last.memory = other.memory

/-- In every state in which nodes may nest as deep as in a given one, a computation reads what steps lead to
from the value of a variable or from the active context. -/
def Walks (action : Eval W TypedValue) (state : State W) (name : Option String) (steps : List Step) : Prop :=
  ∀ (other : State W) (first result : TypedValue), other.AsDeep state →
    other.origin? name = some first → walk? other.heap steps first = some result →
    ∃ last, action.outcome other = (.ok result, last) ∧ last.memory = other.memory

/-- A step that is evaluated reads what stands where it leads. -/
theorem Expr.IsStep.locates {e : Expr} (isStep : e.IsStep) (hostless : ∀ id, state.current.value ≠ .host id)
    (run : e.evaluate.outcome state = (.ok result, final)) :
    ∃ step : Step, e.Locates state (.below state.current.value step) state.memory ∧
      step.read? state.heap state.current.value = some result ∧ final.memory = state.memory := by
  have within : ∀ id, state.enter.current.value ≠ .host id := hostless
  cases e with
  | property name dotted span =>
    change (Eval.inNode span (Property.evaluate name span)).outcome state = _ at run
    obtain ⟨room, reached, inside, rfl⟩ := Eval.inNode_ok_iff.mp run
    obtain ⟨read, rfl⟩ := (Property.evaluate_ok_iff within).mp inside
    exact ⟨_, .property room, read, rfl⟩
  | indexer index span =>
    cases index with
    | literal value inner =>
      change (Eval.inNode span (Indexer.evaluate (Expr.literal value inner).evaluate span)).outcome state =
        _ at run
      obtain ⟨room, reached, inside, rfl⟩ := Eval.inNode_ok_iff.mp run
      obtain ⟨key, step, keyRead, keyed, read⟩ := (Indexer.evaluate_ok_iff within).mp inside
      have located : (Expr.indexer (.literal value inner) span).Locates state
          (.below state.current.value step) reached.memory := .indexer room keyRead keyed
      obtain ⟨-, -, rfl⟩ := Indexer.key_literal_ok_iff.mp keyRead
      exact ⟨step, located, read, rfl⟩
    | _ => exact isStep.elim
  | _ => exact isStep.elim

/-- What a step reads in a state, it reads below any active context. -/
theorem Expr.IsStep.reads {e : Expr} (isStep : e.IsStep) (hostless : ∀ id, state.current.value ≠ .host id)
    (run : e.evaluate.outcome state = (.ok result, final)) :
    ∃ step : Step, step.read? state.heap state.current.value = some result ∧ final.memory = state.memory ∧
      ∀ (other : State W) (found : TypedValue), other.AsDeep state →
        step.read? other.heap other.current.value = some found →
        ∃ last, e.evaluate.outcome other = (.ok found, last) ∧ last.memory = other.memory := by
  obtain ⟨step, located, read, same⟩ := isStep.locates hostless run
  refine ⟨step, read, same, fun other found alike there => ?_⟩
  obtain ⟨step', location, -, again⟩ := located.again isStep alike
  obtain ⟨-, rfl⟩ := Location.below.inj location
  exact Expr.evaluate_of_locates again there

/-- Segments that are steps lead from a value to what their steps lead to. -/
private theorem follow_follows {middle : List Expr} (isStep : ∀ e ∈ middle, e.IsStep) {value : TypedValue}
    (hostless : ∀ id, ¬state.heap.Reaches value.value (.host id))
    (run : (Chain.follow true (middle.map Expr.node) value).outcome state = (.ok result, final)) :
    ∃ steps, walk? state.heap steps value = some result ∧ final.memory = state.memory ∧
      Follows (Chain.follow true (middle.map Expr.node)) state steps := by
  induction middle generalizing state value with
  | nil =>
    obtain ⟨rfl, rfl⟩ := Eval.pure_ok_iff.mp run
    refine ⟨[], rfl, rfl, fun other first found _ walked => ?_⟩
    obtain rfl := Option.some.inj walked
    exact ⟨other, rfl, rfl⟩
  | cons e rest ih =>
    obtain ⟨ofFirst, ofRest⟩ := List.forall_mem_cons.mp isStep
    obtain ⟨next, reached, stepped, onward⟩ := Eval.bind_ok_iff.mp run
    obtain ⟨inner, evaluated, rfl⟩ := Eval.inScope_ok_iff.mp stepped
    rw [Eval.positioned_ok_iff] at evaluated
    have here (id : HostId) : (state.push value).current.value ≠ .host id := fun same =>
      hostless id (by rw [State.current_push] at same; rw [same]; exact .refl)
    obtain ⟨step, read, unchanged, again⟩ := ofFirst.reads here evaluated
    have heap : (inner.cut state.contexts.length).heap = state.heap := congrArg (·.store.heap) unchanged
    have one : walk? state.heap [step] value = some next := Option.bind_eq_some_iff.mpr ⟨next, read, rfl⟩
    have below := Path.hostless_of_walk? hostless one
    rw [← heap] at below
    obtain ⟨steps, walked, unchanged', follows⟩ := ih ofRest below onward
    rw [heap] at walked
    refine ⟨step :: steps, Option.bind_eq_some_iff.mpr ⟨next, read, walked⟩, unchanged'.trans unchanged, ?_⟩
    intro other first found alike walked
    obtain ⟨next, read, walked⟩ := Option.bind_eq_some_iff.mp walked
    obtain ⟨inner', evaluated', unchanged⟩ := again (other.push first) next (alike.push value first) read
    have alike' := alike.after (State.Balanced.scope value (Expr.balanced_evaluate evaluated))
      (State.Balanced.scope first (Expr.balanced_evaluate evaluated'))
    have heap : (inner'.cut other.contexts.length).heap = other.heap := congrArg (·.store.heap) unchanged
    rw [← heap] at walked
    obtain ⟨last, run, unchanged'⟩ := follows (inner'.cut other.contexts.length) next found alike' walked
    refine ⟨last, Eval.bind_ok_iff.mpr ⟨next, _, ?_, run⟩, unchanged'.trans unchanged⟩
    exact Eval.inScope_ok_iff.mpr ⟨inner', Eval.positioned_ok_iff.mpr evaluated', rfl⟩

/-- What a run reads without changing anything is what steps lead to from the value of a variable or from the
active context. -/
def ReadsAlong (action : Eval W TypedValue) (state : State W) (result : TypedValue) (final : State W) : Prop :=
  ∃ name first steps, state.origin? name = some first ∧ walk? state.heap steps first = some result ∧
    final.memory = state.memory ∧ Walks action state name steps

/-- A chain of steps behind a head that is read along steps is read along more steps. -/
private theorem readsAlong_chain {head : Expr} {middle : List Expr} (isStep : ∀ e ∈ middle, e.IsStep)
    (hostless : state.Hostless)
    (ofHead : ∀ {result final}, head.evaluate.outcome state = (.ok result, final) →
      ReadsAlong head.evaluate state result final)
    (run : (Chain.read true head.node (middle.map Expr.node)).outcome state = (.ok result, final)) :
    ReadsAlong (Chain.read true head.node (middle.map Expr.node)) state result final := by
  obtain ⟨target, reached, headRun, onward⟩ := Eval.bind_ok_iff.mp run
  rw [Eval.positioned_ok_iff] at headRun
  obtain ⟨name, first, steps, begins, walked, unchanged, walks⟩ := ofHead headRun
  have heap : reached.heap = state.heap := congrArg (·.store.heap) unchanged
  have start (id : HostId) : ¬state.heap.Reaches first.value (.host id) := fun reaches =>
    hostless id ⟨first, State.entry_origin? begins, reaches⟩
  have below := Path.hostless_of_walk? start walked
  rw [← heap] at below
  obtain ⟨more, walked', unchanged', follows⟩ := follow_follows isStep below onward
  rw [heap] at walked'
  refine ⟨name, first, steps ++ more, begins, ?_, unchanged'.trans unchanged, ?_⟩
  · rw [Path.walk?_append, walked]
    exact walked'
  intro other first found alike begins walked
  rw [Path.walk?_append] at walked
  obtain ⟨target, walked, onward⟩ := Option.bind_eq_some_iff.mp walked
  obtain ⟨reached', headRun', unchanged⟩ := walks other first target alike begins walked
  have alike' := alike.after (Expr.balanced_evaluate headRun) (Expr.balanced_evaluate headRun')
  have heap : reached'.heap = other.heap := congrArg (·.store.heap) unchanged
  rw [← heap] at onward
  obtain ⟨last, run, unchanged'⟩ := follows reached' target found alike' onward
  exact ⟨last, Eval.bind_ok_iff.mpr ⟨target, reached', Eval.positioned_ok_iff.mpr headRun', run⟩,
    unchanged'.trans unchanged⟩

/-- A path is read along its steps. -/
theorem Expr.IsPath.readsAlong {e : Expr} (path : e.IsPath) (hostless : state.Hostless)
    (run : e.evaluate.outcome state = (.ok result, final)) : ReadsAlong e.evaluate state result final := by
  induction path generalizing state result final with
  | reference name span =>
    have read {state final : State W} {result : TypedValue} :
        (Variable.evaluate name span).outcome state = (.ok result, final) ↔
          state.origin? (some name) = some result ∧ state = final := by
      rw [Variable.evaluate, Eval.outcome_get_bind, State.origin?]
      split
      · exact Eval.pure_ok_iff.trans (by rw [Option.some.injEq])
      · split
        · exact Eval.pure_ok_iff.trans (by rw [Option.some.injEq])
        · exact Eval.orFault_ok_iff
    change (Eval.inNode span (Variable.evaluate name span)).outcome state = _ at run
    obtain ⟨room, reached, inside, rfl⟩ := Eval.inNode_ok_iff.mp run
    obtain ⟨begins, rfl⟩ := read.mp inside
    refine ⟨some name, result, [], begins, rfl, rfl, fun other first found alike begins walked => ?_⟩
    obtain rfl := Option.some.inj walked
    exact ⟨_, Eval.inNode_ok_iff.mpr ⟨alike.exhausted?.trans room, _, read.mpr ⟨begins, rfl⟩, rfl⟩, rfl⟩
  | @step e isStep =>
    have here (id : HostId) : state.current.value ≠ .host id := fun same =>
      hostless id ⟨_, state.entry_current, by rw [same]; exact .refl⟩
    obtain ⟨step, read, unchanged, again⟩ := isStep.reads here run
    refine ⟨none, state.current, [step], rfl, by rw [walk?, read]; rfl, unchanged, ?_⟩
    intro other first found alike begins walked
    obtain rfl := Option.some.inj begins
    rw [walk?] at walked
    obtain ⟨next, read, walked⟩ := Option.bind_eq_some_iff.mp walked
    obtain rfl := Option.some.inj walked
    exact again other next alike read
  | @chain head tail span ofHead isStep ih =>
    change (Eval.inNode span (Chain.evaluate head.node (Expr.nodes tail))).outcome state = _ at run
    obtain ⟨room, reached, inside, rfl⟩ := Eval.inNode_ok_iff.mp run
    rw [Expr.nodes_eq_map, Chain.evaluate_ok_iff] at inside
    obtain ⟨name, first, steps, begins, walked, unchanged, walks⟩ :=
      readsAlong_chain isStep hostless.enter (fun run => ih hostless.enter run) inside
    refine ⟨name, first, steps, begins, walked, unchanged, fun other first found alike begins walked => ?_⟩
    obtain ⟨last, run, unchanged⟩ := walks other.enter first found alike.enter begins walked
    rw [← Chain.evaluate_ok_iff, ← Expr.nodes_eq_map] at run
    exact ⟨_, Eval.inNode_ok_iff.mpr ⟨alike.exhausted?.trans room, _, run, rfl⟩, unchanged⟩

/-! ## Where paths lead -/

/-- A path that leads to a variable leads there from every state in which nodes may nest as deep. -/
private theorem locates_binding {e : Expr} (path : e.IsPath) {name : String} {memory : Memory W}
    (located : e.Locates state (.binding name) memory) (alike : other.AsDeep state) :
    memory = state.memory ∧ e.Locates other (.binding name) other.memory := by
  induction path generalizing state other with
  | reference _ span =>
    cases located with
    | reference room free => exact ⟨rfl, .reference (alike.exhausted?.trans room) free⟩
  | step isStep =>
    obtain ⟨_, location, -⟩ := located.again isStep (.refl state)
    cases location
  | chain _ isStep ih =>
    cases located with
    | alone room inside =>
      obtain ⟨same, again⟩ := ih inside alike.enter
      exact ⟨same, .alone (alike.exhausted?.trans room) again⟩
    | last _ ending _ inside =>
      obtain ⟨_, location, -⟩ := inside.again (isStep _ (List.mem_of_getLast? ending)) (.refl _)
      cases location

/-- A path that leads to a location below a value reads this value along steps, and leads to the same location
from every state in which nodes may nest as deep and the steps lead to the same value. -/
private theorem locates_below {e : Expr} (path : e.IsPath) (hostless : state.Hostless) {context : Value}
    {action : Step} {memory : Memory W} (located : e.Locates state (.below context action) memory) :
    memory = state.memory ∧ ∃ name first steps target, state.origin? name = some first ∧
      walk? state.heap steps first = some target ∧ target.value = context ∧
      ∀ other : State W, other.AsDeep state →
        other.origin? name = some first → walk? other.heap steps first = some target →
        e.Locates other (.below context action) other.memory := by
  induction path generalizing state with
  | reference _ span => cases located
  | step isStep =>
    obtain ⟨_, location, rfl, -⟩ := located.again isStep (.refl state)
    obtain ⟨rfl, rfl⟩ := Location.below.inj location
    refine ⟨rfl, none, state.current, [], state.current, rfl, rfl, rfl, fun other alike begins _ => ?_⟩
    obtain ⟨_, location, -, again⟩ := located.again isStep alike
    obtain ⟨-, rfl⟩ := Location.below.inj location
    rwa [Option.some.inj begins] at again
  | @chain head tail span ofHead isStep ih =>
    cases located with
    | alone room inside =>
      obtain ⟨same, name, first, steps, target, begins, walked, here, again⟩ := ih hostless.enter inside
      refine ⟨same, name, first, steps, target, begins, walked, here, fun other alike begins walked => ?_⟩
      exact .alone (alike.exhausted?.trans room) (again other.enter alike.enter begins walked)
    | @last _ final _ _ _ reached target _ _ room ending read inside =>
      have ofFinal : final.IsStep := isStep final (List.mem_of_getLast? ending)
      have earlier : ∀ e ∈ tail.dropLast, e.IsStep := fun e member =>
        isStep e ((List.dropLast_sublist tail).subset member)
      obtain ⟨name, first, steps, begins, walked, unchanged, walks⟩ :=
        readsAlong_chain earlier hostless.enter (fun run => ofHead.readsAlong hostless.enter run) read
      obtain ⟨_, location, rfl, -⟩ := inside.again ofFinal (.refl _)
      obtain ⟨rfl, rfl⟩ := Location.below.inj location
      refine ⟨unchanged, name, first, steps, target, begins, walked, rfl, ?_⟩
      intro other alike begins' walked'
      obtain ⟨reached', read', unchanged'⟩ := walks other.enter first target alike.enter begins' walked'
      have alike' : reached'.AsDeep reached :=
        alike.enter.after (Expr.balanced_read read) (Expr.balanced_read read')
      obtain ⟨_, location, -, again⟩ := inside.again ofFinal (alike'.push target target)
      obtain ⟨-, rfl⟩ := Location.below.inj location
      rw [← show reached'.memory = other.memory from unchanged']
      exact .last (alike.exhausted?.trans room) ending read' again

/-- What is stored through a path is read through it afterwards. -/
private theorem read_back {e : Expr} (path : e.IsPath) (hostless : state.Hostless) (backed : state.Backed)
    (acyclic : state.Acyclic) {value : TypedValue}
    (stored : (e.store value).outcome state = (.ok (), final)) :
    ∃ location last, e.Locates state location state.memory ∧
      location.put? state.memory value = some final.memory ∧
      e.evaluate.outcome final = (.ok ⟨value.value, location.keptType state.memory value⟩, last) := by
  obtain ⟨location, memory, located, put, given⟩ :=
    Expr.locates_given hostless backed (state.realm_holds []) stored
  have balanced := Expr.balanced_store stored
  have leads : memory = state.memory ∧ e.Locates final location final.memory := by
    cases location with
    | binding name => exact locates_binding path located (.of_balanced balanced)
    | below context action =>
      obtain ⟨same, name, first, steps, target, begins, walked, rfl, again⟩ :=
        locates_below path hostless located
      obtain ⟨heap, changed, later⟩ := Option.map_eq_some_iff.mp put
      subst same
      obtain ⟨container, here⟩ := Path.Step.container_of_store? changed
      have begins' : final.origin? name = some first :=
        (State.origin?_congr balanced.root balanced.contexts (congrArg (·.bindings) later).symm name).trans
          begins
      have walked' : walk? heap steps first = some target :=
        Path.walk?_store? (here ▸ changed)
          (fun value below => acyclic value ⟨_, State.entry_origin? begins, below⟩) walked (here ▸ .refl)
      refine ⟨rfl, again final (.of_balanced balanced) begins' ?_⟩
      rwa [← show heap = final.heap from congrArg (·.store.heap) later]
  obtain ⟨rfl, again⟩ := leads
  obtain ⟨last, run, -⟩ := Expr.evaluate_of_locates again (Location.read?_put? put given)
  exact ⟨location, last, located, put, run⟩

end

/-! ## Targets as they are written -/

/-- The expressions that are built of properties, variables, and indices with literals. -/
inductive Expr.OfSegments : Expr → Prop where
  | property (name : String) (dotted : Bool) (span : Span) : OfSegments (.property name dotted span)
  | reference (name : String) (span : Span) : OfSegments (.reference name span)
  | indexer (value : Literal) (inner span : Span) : OfSegments (.indexer (.literal value inner) span)
  | chain {head : Expr} {tail : List Expr} {span : Span} (ofHead : OfSegments head)
    (ofTail : ∀ e ∈ tail, OfSegments e) : OfSegments (.chain head tail span)

/-- What is asked of an expression of segments that stands in a phrase: it is a step behind the head of a
chain, and a path elsewhere. -/
private def Fits : Grammar.Nonterminal → Expr → Prop
  | .links, e | .segment _, e | .indexer, e => e.IsStep
  | _, e => e.IsPath

/-- The grammar lets variables and chains stand only at the head of a chain. -/
private theorem fits_of_derives {phrase : Grammar.Nonterminal} {tokens : List Token} {es : List Expr}
    (derived : Grammar.Derives phrase tokens es) : ∀ e ∈ es, e.OfSegments → Fits phrase e := by
  induction derived with
  | plain _ ih | single _ ih | parens _ _ _ ih | ofReference _ ih | oneArgument _ ih => exact ih
  | assignment _ _ _ _ _ | literal _ _ | emptyCall _ _ _ _ _ | call _ _ _ _ _ _ _ =>
    intro e member segments
    obtain rfl := List.mem_singleton.mp member
    cases segments
  | noLink => exact fun e member => absurd member List.not_mem_nil
  | compound _ _ ofHead ofTail =>
    intro e member segments
    obtain rfl := List.mem_singleton.mp member
    cases segments with
    | chain first others =>
      exact .chain (ofHead _ (List.mem_singleton_self _) first)
        fun e member => ofTail e member (others e member)
  | dotLink _ _ _ ofFirst ofOthers | indexLink _ _ ofFirst ofOthers | moreArguments _ _ _ ofFirst ofOthers =>
    intro e member segments
    obtain rfl | member := List.mem_cons.mp member
    · exact ofFirst e (List.mem_singleton_self e) segments
    · exact ofOthers e member segments
  | ofSegment _ ih | ofIndexer _ ih => exact fun e member segments => .step (ih e member segments)
  | property name span dotted =>
    intro e member _
    obtain rfl := List.mem_singleton.mp member
    exact trivial
  | hash name mark span =>
    intro e member _
    obtain rfl := List.mem_singleton.mp member
    exact .reference name (mark.merge span)
  | brackets opening closing _ _ =>
    intro e member segments
    obtain rfl := List.mem_singleton.mp member
    cases segments
    exact trivial

/-- What was stored through a path that was written down is what the path reads afterwards, in a state without
objects of an application in which no container is inside itself. It is read with its own type if the path
leads to a variable, with the declared type of the field if it leads to a field that has one, and else with
the type that is inferred from it. -/
theorem read_after_write [Host W] {source : String} {target : Expr} (parsed : Expr.parse source = .ok target)
    (segments : target.OfSegments) {state final : State W} {value : TypedValue} (hostless : state.Hostless)
    (backed : state.Backed) (acyclic : state.Acyclic)
    (stored : (target.store value).outcome state = (.ok (), final)) :
    ∃ location last, target.Locates state location state.memory ∧
      location.put? state.memory value = some final.memory ∧
      target.evaluate.outcome final = (.ok ⟨value.value, location.keptType state.memory value⟩, last) := by
  obtain ⟨_, _, derived⟩ := Expr.of_parse parsed
  have path : target.IsPath := fits_of_derives derived target (List.mem_singleton_self target) segments
  exact read_back path hostless backed acyclic stored

/-- A root with one list under two names. -/
private def sharedList : State Unit :=
  .initial ⟨.object ⟨0⟩, .object⟩ .standard
    ⟨⟨#[[.int 1, .int 2]],
      #[⟨none, .ofList [("a", .plain (.list ⟨0⟩)), ("b", .plain (.list ⟨0⟩))]⟩], #[]⟩, ()⟩

/-- `a[0]`. -/
private def sharedItem : Expr :=
  .chain (.property "a" false ⟨0, 1⟩) [.indexer (.literal (.int 0) ⟨2, 3⟩) ⟨1, 4⟩] ⟨0, 4⟩

private theorem parse_sharedItem : Expr.parse "a[0]" = .ok sharedItem := by
  have tokens : Lexer.scan 0 "a[0]".toList = .ok [⟨.name "a", ⟨0, 1⟩⟩, ⟨.openBracket, ⟨1, 2⟩⟩,
      ⟨.literal (.int 0), ⟨2, 3⟩⟩, ⟨.closeBracket, ⟨3, 4⟩⟩] := by
    have zero : Lexer.ofNumber? ['0'] = some (.literal (.int 0)) := by decide +kernel
    simp [Lexer.scan, Lexer.isGap, Lexer.reach, Lexer.isNameStart, Lexer.isNamePart, isDigit,
      Lexer.ofLexeme?, Lexer.ofMark?, Lexer.ofName, Lexer.numberReach, Lexer.run, Lexer.fractionReach,
      zero, Span.ofRange, Span.offsetLimit, Text.bytes, Except.map, Char.utf8Size]
  have index := Grammar.Derives.literal (.int 0) ⟨2, 3⟩
  exact Expr.parse_of_derives tokens (by decide) (.plain (Parser.derives_ofChain
    (.ofSegment (.property "a" ⟨0, 1⟩ false))
    (.indexLink (.brackets ⟨1, 2⟩ ⟨3, 4⟩ (.plain (.single index))) .noLink)))

/-- The object contains the list only, and the list contains numbers only. -/
private theorem contains_sharedList {source value : Value} (contains : sharedList.heap.Contains source value) :
    source = .object ⟨0⟩ ∧ value = .list ⟨0⟩ ∨ source = .list ⟨0⟩ ∧ value.IsScalar := by
  cases contains with
  | @item id _ member =>
    obtain ⟨_ | index⟩ := id
    · have items : sharedList.heap.items ⟨0⟩ = [.int 1, .int 2] := rfl
      rw [items] at member
      simp only [List.mem_cons, List.not_mem_nil, or_false] at member
      obtain rfl | rfl := member
      · exact .inr ⟨rfl, trivial⟩
      · exact .inr ⟨rfl, trivial⟩
    · cases member
  | @field id name field found =>
    obtain ⟨_ | index⟩ := id
    · have only : sharedList.heap.field? ⟨0⟩ name =
          if "b" = name ∨ "a" = name then some (.plain (.list ⟨0⟩)) else none := by
        simp [sharedList, State.initial, State.heap, Heap.field?, Heap.object, Table.ofList, Table.get?_insert,
          ite_or]
      rw [only] at found
      split at found
      · obtain rfl := Option.some.inj found
        exact .inl ⟨rfl, rfl⟩
      · cases found
    · cases found

private theorem reaches_sharedList {value : Value} (found : sharedList.Reaches value) :
    value.IsScalar ∨ ∃ container : Container, value = container.value ∧
      sharedList.heap.holds container = true := by
  obtain ⟨entry, there, reaches⟩ := found
  have start : entry.value = .object ⟨0⟩ := by
    cases there with
    | root => rfl
    | binding bound => cases bound
    | context active => cases active
  obtain same | ⟨_, _, contains⟩ := Relation.ReflTransGen.cases_tail reaches
  · exact .inr ⟨.object ⟨0⟩, same.trans start, rfl⟩
  · obtain ⟨-, rfl⟩ | ⟨-, scalar⟩ := contains_sharedList contains
    · exact .inr ⟨.list ⟨0⟩, rfl, rfl⟩
    · exact .inl scalar

/-- How many containers are below a value at most, itself included. -/
private def height : Value → Nat
  | .object _ => 2
  | .list _ => 1
  | _ => 0

private theorem acyclic_sharedList : sharedList.Acyclic := by
  refine State.acyclic_of_rank height fun source value contains => ?_
  obtain ⟨rfl, rfl⟩ | ⟨rfl, scalar⟩ := contains_sharedList contains
  · exact Nat.one_lt_two
  · cases value with
    | list _ | object _ | host _ => exact scalar.elim
    | _ => exact Nat.one_pos

/-- The root is read from its list after it was stored there, though it is inside itself since. -/
theorem read_after_write_cyclic :
    Expr.parse "a[0]" = .ok sharedItem ∧ sharedItem.OfSegments ∧ sharedList.Hostless ∧ sharedList.Backed ∧
    sharedList.Acyclic ∧
    ∃ final, (sharedItem.store sharedList.root).outcome sharedList = (.ok (), final) ∧ ¬final.Acyclic ∧
      ∃ location last, sharedItem.Locates sharedList location sharedList.memory ∧
        location.put? sharedList.memory sharedList.root = some final.memory ∧
        sharedItem.evaluate.outcome final =
          (.ok ⟨.object ⟨0⟩, location.keptType sharedList.memory sharedList.root⟩, last) := by
  have segments : sharedItem.OfSegments := by
    refine .chain (.property "a" false ⟨0, 1⟩) fun e member => ?_
    obtain rfl := List.mem_singleton.mp member
    exact .indexer (.int 0) ⟨2, 3⟩ ⟨1, 4⟩
  obtain ⟨hostless, backed⟩ := hostless_and_backed (fun _ => reaches_sharedList)
  refine ⟨parse_sharedItem, segments, hostless, backed, acyclic_sharedList, _, rfl, fun acyclic => ?_,
    read_after_write parse_sharedItem segments hostless backed acyclic_sharedList rfl⟩
  exact acyclic (.object ⟨0⟩) ⟨_, .root, .refl⟩
    (.head (@Heap.Contains.field _ ⟨0⟩ "a" (.plain (.list ⟨0⟩)) rfl) (.single (.item List.mem_cons_self)))

end DotChain
