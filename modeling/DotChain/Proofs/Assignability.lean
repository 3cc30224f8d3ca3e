import DotChain.Proofs.Law
import DotChain.Scripted.World

/-!
# Assignability

Storing to an expression and asking whether that would succeed are two case analyses. Both first go
to the location: they enter the nodes, read the chain in front of its last segment and evaluate the
key of an index (`Expr.locate`). Main statement: `isAssignable_foretells`, the answer foretells how
storing ends, and whatever goes wrong on the way to the location goes wrong in the same way in both.
-/

namespace DotChain

variable {W α : Type}

/-- The application answers whether a property may be written as it would let it be written, and one
of the two fails exactly if the other does. -/
def Host.Agreeing (W : Type) [Host W] : Prop :=
  ∀ (id : HostId) (name : String) (value : Value) (store : Store W),
    match ((Host.canWrite id name).outcome store).1, ((Host.write id name value).outcome store).1 with
    | .ok asked, .ok written => asked = written
    | .error _, .error _ => True
    | _, _ => False

/-- On some store the application fails with one error when it is asked whether a property may be
written, and with another when it is told to write it. -/
def Host.Refuses [Host W] (value : Value) (asked written : HostError) : Prop :=
  ∃ (id : HostId) (name : String) (store : Store W),
    ((Host.canWrite id name).outcome store).1 = .error asked ∧
    ((Host.write id name value).outcome store).1 = .error written

/-- Goes to the location that an expression denotes and does nothing there. A chain is read in front
of its last segment; the key of an index is evaluated; every node is one level of nesting. -/
def Expr.locate [Host W] : Expr → Eval W Unit
  | .indexer index span => Eval.inNode span do
    let _ ← Indexer.key index.evaluate
    pure ()
  | .chain head tail span => Eval.inNode span <|
    match _found : tail.getLast? with
    | none => locate head
    | some last => do
      let correct := (← get).config.correctsWrites
      let target ← Chain.read correct head.node (tail.dropLast.map Expr.node)
      Eval.inScope target (Eval.positioned correct last.span (locate last))
  | .literal _ span => Eval.inNode span (pure ())
  | .property _ _ span => Eval.inNode span (pure ())
  | .reference _ span => Eval.inNode span (pure ())
  | .method _ _ _ span => Eval.inNode span (pure ())
  | .assign _ _ span => Eval.inNode span (pure ())
termination_by e => e
decreasing_by
  · simp only [Expr.chain.sizeOf_spec]
    omega
  · have smaller := List.sizeOf_lt_of_mem (List.mem_of_getLast? ‹_›)
    simp only [Expr.chain.sizeOf_spec]
    omega

/-! ## Three runs from one state -/

/-- How going to a location, asking about it and storing a value to it may end together. -/
inductive Foretold [Host W] (value : Value) :
    Except Failure Unit × State W → Except Failure Bool × State W → Except Failure Unit × State W → Prop
  /-- The location is not reached: all three fail alike. -/
  | unreached (failure : Failure) (final : State W) :
    Foretold value (.error failure, final) (.error failure, final) (.error failure, final)
  | granted (located asked stored : State W) :
    Foretold value (.ok (), located) (.ok true, asked) (.ok (), stored)
  | denied (error : EvalError) (located asked stored : State W) :
    Foretold value (.ok (), located) (.ok false, asked) (.error (.eval error), stored)
  | refused {first second : HostError} (refuses : Host.Refuses (W := W) value first second)
    (located asked stored : State W) :
    Foretold value (.ok (), located) (.error (.host first), asked) (.error (.host second), stored)

section
variable [Host W] {value : Value}

/-- Three computations end together as `Foretold` says when they start in a given state. -/
def ForetoldAt (value : Value) (locate : Eval W Unit) (ask : Eval W Bool) (store : Eval W Unit)
    (state : State W) : Prop :=
  Foretold value (locate.outcome state) (ask.outcome state) (store.outcome state)

/-- What the three do first and alike may fail; then they all have failed. -/
private theorem foretoldAt_bind {first : Eval W α} {locate : α → Eval W Unit}
    {ask : α → Eval W Bool} {store : α → Eval W Unit} {state : State W}
    (after : ∀ result reached, first.outcome state = (.ok result, reached) →
      ForetoldAt value (locate result) (ask result) (store result) reached) :
    ForetoldAt value (first >>= locate) (first >>= ask) (first >>= store) state := by
  unfold ForetoldAt at after ⊢
  rw [Eval.outcome_bind, Eval.outcome_bind, Eval.outcome_bind]
  rcases run : first.outcome state with ⟨_ | result, reached⟩
  · next failure => exact .unreached failure reached
  · exact after result reached run

private theorem foretoldAt_get {locate : Eval W Unit} {ask : State W → Eval W Bool}
    {store : State W → Eval W Unit} {state : State W}
    (after : ForetoldAt value locate (ask state) (store state) state) :
    ForetoldAt value locate (get >>= ask) (get >>= store) state := by
  unfold ForetoldAt at after ⊢
  rw [Eval.outcome_bind, Eval.outcome_bind]
  exact after

private theorem foretoldAt_inNode (span : Span) {locate : Eval W Unit} {ask : Eval W Bool}
    {store : Eval W Unit} {state : State W} (inside : ForetoldAt value locate ask store state.enter) :
    ForetoldAt value (Eval.inNode span locate) (Eval.inNode span ask) (Eval.inNode span store)
      state := by
  unfold ForetoldAt at inside ⊢
  rw [Eval.outcome_inNode, Eval.outcome_inNode, Eval.outcome_inNode]
  cases state.exhausted? with
  | some limit => exact .unreached _ state
  | none =>
    generalize locate.outcome state.enter = located at inside ⊢
    generalize ask.outcome state.enter = asked at inside ⊢
    generalize store.outcome state.enter = stored at inside ⊢
    cases inside with
    | unreached failure final => exact .unreached failure final.leave
    | granted a b c => exact .granted a.leave b.leave c.leave
    | denied error a b c => exact .denied error a.leave b.leave c.leave
    | refused refuses a b c => exact .refused refuses a.leave b.leave c.leave

private theorem foretoldAt_inScope (target : TypedValue) {locate : Eval W Unit} {ask : Eval W Bool}
    {store : Eval W Unit} {state : State W}
    (inside : ForetoldAt value locate ask store (state.push target)) :
    ForetoldAt value (Eval.inScope target locate) (Eval.inScope target ask)
      (Eval.inScope target store) state := by
  unfold ForetoldAt at inside ⊢
  rw [Eval.outcome_inScope, Eval.outcome_inScope, Eval.outcome_inScope]
  generalize locate.outcome (state.push target) = located at inside ⊢
  generalize ask.outcome (state.push target) = asked at inside ⊢
  generalize store.outcome (state.push target) = stored at inside ⊢
  cases inside with
  | unreached failure final => exact .unreached failure (final.cut _)
  | granted a b c => exact .granted (a.cut _) (b.cut _) (c.cut _)
  | denied error a b c => exact .denied error (a.cut _) (b.cut _) (c.cut _)
  | refused refuses a b c => exact .refused refuses (a.cut _) (b.cut _) (c.cut _)

private theorem foretoldAt_positioned (correct : Bool) (span : Span) {locate : Eval W Unit}
    {ask : Eval W Bool} {store : Eval W Unit} {state : State W}
    (inside : ForetoldAt value locate ask store state) :
    ForetoldAt value (Eval.positioned correct span locate) (Eval.positioned correct span ask)
      (Eval.positioned correct span store) state := by
  unfold ForetoldAt at inside ⊢
  rw [Eval.outcome_positioned, Eval.outcome_positioned, Eval.outcome_positioned]
  generalize locate.outcome state = located at inside ⊢
  generalize ask.outcome state = asked at inside ⊢
  generalize store.outcome state = stored at inside ⊢
  cases inside with
  | unreached failure final => exact .unreached _ final
  | granted a b c => exact .granted a b c
  | denied error a b c =>
    cases correct with
    | false => exact .denied error a b c
    | true => exact .denied (error.withSpan span) a b c
  | refused refuses a b c =>
    -- An error of the application has no place that could be moved.
    cases correct with
    | false => exact .refused refuses a b c
    | true => exact .refused refuses a b c

/-! ## At the location -/

/-- Nothing can be stored, and asking says so. -/
private theorem foretoldAt_fault (fault : Fault) (span : Span) (state : State W) :
    ForetoldAt value (pure ()) (pure false) (Eval.fault fault span) state :=
  .denied ⟨fault, fault.message, some span, []⟩ state state state

/-- A change of the heap that succeeds exactly if the answer is yes. -/
private theorem foretoldAt_change {changed : Option Heap} {answer : Bool}
    (agrees : changed.isSome = answer) (fault : Fault) (span : Span) (state : State W) :
    ForetoldAt value (pure ()) (pure answer)
      (do set (state.withHeap (← Eval.orFault changed fault span))) state := by
  subst agrees
  cases changed with
  | none => exact .denied ⟨fault, fault.message, some span, []⟩ state state state
  | some heap => exact .granted state state (state.withHeap heap)

/-- A property of an object of the application. -/
private theorem foretoldAt_host (agrees : Host.Agreeing W) (id : HostId) (name : String)
    (fault : Fault) (span : Span) (state : State W) :
    ForetoldAt value (pure ()) (Eval.host (Host.canWrite id name))
      (do unless ← Eval.host (Host.write id name value) do Eval.fault fault span) state := by
  have same := agrees id name value state.store
  unfold ForetoldAt
  rw [Eval.outcome_bind, Eval.outcome_host, Eval.outcome_host]
  change match ((ExceptT.run (Host.canWrite id name)).run state.store).1,
    ((ExceptT.run (Host.write id name value)).run state.store).1 with
    | .ok asked, .ok written => asked = written
    | .error _, .error _ => True
    | _, _ => False at same
  cases asked : ((ExceptT.run (Host.canWrite id name)).run state.store).1 with
  | error first =>
    cases written : ((ExceptT.run (Host.write id name value)).run state.store).1 with
    | error second => exact .refused ⟨id, name, state.store, asked, written⟩ _ _ _
    | ok written' => rw [asked, written] at same; exact same.elim
  | ok answer =>
    cases written : ((ExceptT.run (Host.write id name value)).run state.store).1 with
    | error second => rw [asked, written] at same; exact same.elim
    | ok done =>
      rw [asked, written] at same
      obtain rfl : answer = done := same
      cases answer with
      | true => exact .granted _ _ _
      | false => exact .denied ⟨fault, fault.message, some span, []⟩ _ _ _

private theorem foretoldAt_property (agrees : Host.Agreeing W) (name : String) (span : Span)
    (typed : TypedValue) (state : State W) :
    ForetoldAt typed.value (pure ()) (Property.isAssignable name)
      (Property.assign name span typed) state := by
  refine foretoldAt_get ?_
  cases context : state.current.value with
  | null => exact foretoldAt_fault _ span state
  | object id =>
    exact foretoldAt_change (state.heap.isSome_write? id name typed.value) _ span state
  | host id => exact foretoldAt_host agrees id name _ span state
  | _ =>
    dsimp only
    split
    · exact foretoldAt_fault _ span state
    · exact foretoldAt_fault _ span state

private theorem foretoldAt_variable (name : String) (span : Span) (typed : TypedValue)
    (state : State W) :
    ForetoldAt value (pure ()) (pure (Variable.isAssignable name))
      (Variable.assign name span typed) state := by
  unfold Variable.assign
  split
  · next free => rw [free]; exact .granted state state (state.bind name typed)
  · next reserved =>
    rw [(Bool.not_eq_true _).mp reserved]
    exact foretoldAt_fault _ span state

/-- A position of a list denotes an item exactly if the item can be replaced. -/
private theorem isSome_replace_slot (heap : Heap) (id : ListId) (i : Int64) (item : Value) :
    ((slot? i (heap.items id).length).bind (heap.replace? id · item)).isSome =
      (slot? i (heap.items id).length).isSome := by
  cases found : slot? i (heap.items id).length with
  | none => rfl
  | some position =>
    have inside := (slot?_eq_some_iff.mp found).2
    simp only [Option.bind_some, Option.isSome_some]
    rw [Heap.isSome_replace?]
    exact decide_eq_true inside

private theorem foretoldAt_indexer (agrees : Host.Agreeing W) (index : Eval W TypedValue)
    (span : Span) (typed : TypedValue) (state : State W) :
    ForetoldAt typed.value (do let _ ← Indexer.key index; pure ()) (Indexer.isAssignable index)
      (Indexer.assign index span typed) state := by
  refine foretoldAt_get (foretoldAt_bind fun key reached _ => foretoldAt_get ?_)
  cases state.current.value with
  | list id =>
    cases key with
    | int i => exact foretoldAt_change (isSome_replace_slot reached.heap id i typed.value) _ span reached
    | _ => exact foretoldAt_fault _ span reached
  | object id =>
    cases key with
    | text name =>
      exact foretoldAt_change (reached.heap.isSome_write? id name typed.value) _ span reached
    | _ => exact foretoldAt_fault _ span reached
  | host id =>
    cases key with
    | text name => exact foretoldAt_host agrees id name _ span reached
    | _ => exact foretoldAt_fault _ span reached
  | _ => exact foretoldAt_fault _ span reached

/-! ## Chains -/

private theorem foretoldAt_chain (head : Expr) (tail : List Expr) (span : Span) (typed : TypedValue)
    (ofHead : ∀ state : State W,
      ForetoldAt typed.value head.locate head.isAssignable (head.store typed) state)
    (ofTail : ∀ segment ∈ tail, ∀ state : State W,
      ForetoldAt typed.value segment.locate segment.isAssignable (segment.store typed) state)
    (state : State W) :
    ForetoldAt typed.value (Expr.chain head tail span).locate (Expr.chain head tail span).isAssignable
      ((Expr.chain head tail span).store typed) state := by
  rw [Expr.locate]
  refine foretoldAt_inNode span ?_
  change ForetoldAt typed.value _
    (Chain.atLast head.node (Expr.nodes tail) (·.isAssignable))
    (Chain.atLast head.node (Expr.nodes tail) (·.assign typed)) state.enter
  unfold Chain.atLast
  rw [Expr.nodes_eq_map, List.getLast?_map]
  split
  · next none =>
    rw [none]
    exact ofHead state.enter
  · next last found =>
    rw [found]
    refine foretoldAt_bind fun start reached _ => ?_
    rw [← List.map_dropLast, Expr.node_span]
    refine foretoldAt_bind fun target reached _ => ?_
    refine foretoldAt_inScope target (foretoldAt_positioned _ last.span ?_)
    exact ofTail last (List.mem_of_getLast? found) _

/-- Going to the location of an expression, asking about it and storing to it end together. -/
theorem foretold (agrees : Host.Agreeing W) (e : Expr) (typed : TypedValue)
    (state : State W) :
    ForetoldAt typed.value e.locate e.isAssignable (e.store typed) state := by
  induction e generalizing state with
  | literal value span =>
    rw [Expr.locate]
    exact foretoldAt_inNode span (foretoldAt_fault _ span state.enter)
  | property name dotted span =>
    rw [Expr.locate]
    exact foretoldAt_inNode span (foretoldAt_property agrees name span typed state.enter)
  | reference name span =>
    rw [Expr.locate]
    exact foretoldAt_inNode span (foretoldAt_variable name span typed state.enter)
  | indexer index span ih =>
    rw [Expr.locate]
    exact foretoldAt_inNode span (foretoldAt_indexer agrees index.evaluate span typed state.enter)
  | method name args dotted span ih =>
    rw [Expr.locate]
    exact foretoldAt_inNode span (foretoldAt_fault _ span state.enter)
  | assign target value span ofTarget ofValue =>
    rw [Expr.locate]
    exact foretoldAt_inNode span (foretoldAt_fault _ span state.enter)
  | chain head tail span ofHead ofTail =>
    exact foretoldAt_chain head tail span typed ofHead ofTail state

end

/-! ## Scripted applications agree -/

private theorem outcome_attempt (operation name : String) (id : HostId)
    (store : Store Scripted.World) :
    (Scripted.attempt operation name id).outcome store =
      (if (store.world.script id).failing.contains name then
        .error (.object (store.world.script id).typeName (operation ++ " " ++ name))
      else if (store.world.script id).refusing.contains name then
        .error (.other (operation ++ ": " ++ name ++ "!"))
      else .ok (store.world.script id), store) := by
  unfold Scripted.attempt
  rw [HostAction.outcome_bind]
  change HostAction.outcome (if _ then throw _ else if _ then throw _ else pure _) store = _
  split
  · rfl
  · split
    · rfl
    · rfl

/-- A scripted object lets those properties be written that it says may be written. -/
theorem Scripted.agreeing : Host.Agreeing Scripted.World := by
  intro id name value store
  simp only [Host.canWrite, Host.write, HostAction.outcome_bind, outcome_attempt]
  by_cases failing : (store.world.script id).failing.contains name = true
  · simp only [failing, if_true]
  · by_cases refusing : (store.world.script id).refusing.contains name = true
    · simp only [failing, refusing, if_true, if_false, Bool.false_eq_true]
    · simp only [failing, refusing, if_false, Bool.false_eq_true]
      by_cases writable : (store.world.script id).writable.contains name = true
      · rw [if_pos writable]
        exact writable
      · rw [if_neg writable]
        exact (Bool.not_eq_true _).mp writable

/-! ## What the answer foretells -/

/-- The answer to whether an expression is assignable foretells how storing ends: after yes it succeeds,
and after no it fails with an error of the expression. What fails on the way to the location fails
alike in both. Besides, asking fails only where the application refuses to answer at the location. -/
theorem isAssignable_foretells [Host W] (agrees : Host.Agreeing W) (e : Expr) (typed : TypedValue)
    (state : State W) :
    ((e.isAssignable.outcome state).1 = .ok true → ((e.store typed).outcome state).1 = .ok ()) ∧
    ((e.isAssignable.outcome state).1 = .ok false →
      ∃ error, ((e.store typed).outcome state).1 = .error (.eval error)) ∧
    (∀ failure, (e.locate.outcome state).1 = .error failure →
      (e.isAssignable.outcome state).1 = .error failure ∧
      ((e.store typed).outcome state).1 = .error failure) ∧
    (∀ failure, (e.isAssignable.outcome state).1 = .error failure →
      (e.locate.outcome state).1 = .error failure ∨
      ∃ asked written, Host.Refuses (W := W) typed.value asked written ∧ failure = .host asked ∧
        ((e.store typed).outcome state).1 = .error (.host written)) := by
  have together := foretold agrees e typed state
  unfold ForetoldAt at together
  generalize e.locate.outcome state = located at together ⊢
  generalize e.isAssignable.outcome state = asked at together ⊢
  generalize (e.store typed).outcome state = stored at together ⊢
  cases together with
  | unreached failure final =>
    refine ⟨fun granted => (by cases granted), fun denied => (by cases denied), ?_, ?_⟩
    · intro other failed
      obtain rfl := Except.error.inj failed
      exact ⟨rfl, rfl⟩
    · intro other failed
      obtain rfl := Except.error.inj failed
      exact .inl rfl
  | granted a b c =>
    refine ⟨fun _ => rfl, fun denied => (by cases denied), ?_, ?_⟩
    · intro other failed
      cases failed
    · intro other failed
      cases failed
  | denied error a b c =>
    refine ⟨fun granted => (by cases granted), fun _ => ⟨error, rfl⟩, ?_, ?_⟩
    · intro other failed
      cases failed
    · intro other failed
      cases failed
  | @refused first second refuses a b c =>
    refine ⟨fun granted => (by cases granted), fun denied => (by cases denied), ?_, ?_⟩
    · intro other failed
      cases failed
    · intro other failed
      obtain rfl := Except.error.inj failed
      exact .inr ⟨first, second, refuses, rfl, rfl⟩

/-- An account that lets its limit be written and nothing else, as root. -/
private def account : State Scripted.World :=
  .initial ⟨.host ⟨0⟩, .named "Account"⟩ .standard
    ⟨.empty, ⟨#[{ Scripted.Script.plain "Account" .empty with writable := ["limit"] }], []⟩⟩

/-- `#root['limit']` may be stored to, and `#root.owner` may not. -/
theorem isAssignable_foretells_account :
    Host.Agreeing Scripted.World ∧
    (((Expr.chain (.reference "root" ⟨0, 5⟩) [.indexer (.literal (.text "limit") ⟨6, 13⟩) ⟨5, 14⟩]
      ⟨0, 14⟩).store .null).outcome account).1 = .ok () ∧
    ∃ error, (((Expr.chain (.reference "root" ⟨0, 5⟩) [.property "owner" true ⟨6, 11⟩]
      ⟨0, 11⟩).store .null).outcome account).1 = .error (.eval error) :=
  ⟨Scripted.agreeing, (isAssignable_foretells Scripted.agreeing _ _ account).1 rfl,
    (isAssignable_foretells Scripted.agreeing _ _ account).2.1 rfl⟩

end DotChain
