import DotChain.Node
import DotChain.Outcome

/-!
# Transcripts

A watched node enters every call of one of its operations in a transcript: which segment it is, what was
asked of it, in which state, what it answered and which state it left. Main statement:
`Chain.outcome_watched`, a chain of watched nodes does what the chain of the nodes does.
-/

namespace DotChain

variable {W α β : Type}

/-- What may be asked of a node. -/
inductive Operation where
  | evaluate
  | assign (value : TypedValue)
  | isAssignable

/-- Whether a chain moves the errors of the segments that it calls for an operation. -/
def Operation.corrects (config : Config) : Operation → Bool
  | evaluate => true
  | assign _ => config.correctsWrites
  | isAssignable => config.correctsWrites

/-- What a node answers when it does not fail. -/
inductive Answer where
  | value (result : TypedValue)
  | stored
  | verdict (assignable : Bool)

/-- The operation of a node, with its answer. -/
def Node.perform (node : Node W) : Operation → Eval W Answer
  | .evaluate => .value <$> node.evaluate
  | .assign value => (fun _ => .stored) <$> node.assign value
  | .isAssignable => .verdict <$> node.isAssignable

/-- A call of a segment. -/
structure Call (W : Type) where
  segment : Nat
  operation : Operation
  /-- The state in which the segment was called. -/
  before : State W
  answer : Except Failure Answer
  /-- The state that the segment has left. -/
  after : State W

/-- The call of a node in a given state. -/
def Node.call (node : Node W) (segment : Nat) (operation : Operation) (before : State W) : Call W where
  segment := segment
  operation := operation
  before := before
  answer := ((node.perform operation).outcome before).1
  after := ((node.perform operation).outcome before).2

/-- A world in which calls are entered in a transcript, the latest at its end. -/
structure Watched (W : Type) where
  world : W
  calls : List (Call W)

namespace State

/-- The transcript as far as it has come. -/
def calls (state : State (Watched W)) : List (Call W) := state.store.world.calls

/-- The state as those see it who do not know of the transcript. -/
def unwatched (state : State (Watched W)) : State W where
  root := state.root
  bindings := state.bindings
  contexts := state.contexts
  depth := state.depth
  config := state.config
  counters := state.counters
  store := ⟨state.store.heap, state.store.world.world⟩

/-- The state together with a transcript. -/
def watched (state : State W) (calls : List (Call W)) : State (Watched W) where
  root := state.root
  bindings := state.bindings
  contexts := state.contexts
  depth := state.depth
  config := state.config
  counters := state.counters
  store := ⟨state.store.heap, state.store.world, calls⟩

@[simp] theorem unwatched_watched (state : State W) (calls : List (Call W)) :
    (state.watched calls).unwatched = state := rfl

@[simp] theorem calls_watched (state : State W) (calls : List (Call W)) :
    (state.watched calls).calls = calls := rfl

end State

/-- Runs an operation and enters the call. -/
def Eval.watched (segment : Nat) (operation : Operation) (answer : α → Answer) (action : Eval W α) :
    Eval (Watched W) α := .mk fun state =>
  let (result, final) := action.outcome state.unwatched
  (result, final.watched
    (state.calls ++ [⟨segment, operation, state.unwatched, result.map answer, final⟩]))

/-- The node whose calls are entered. -/
def Node.watched (segment : Nat) (node : Node W) : Node (Watched W) where
  span := node.span
  evaluate := node.evaluate.watched segment .evaluate .value
  assign value := (node.assign value).watched segment (.assign value) fun _ => .stored
  isAssignable := node.isAssignable.watched segment .isAssignable .verdict

/-- The nodes whose calls are entered, counted from a given segment on. -/
def Node.watchedFrom (first : Nat) : List (Node W) → List (Node (Watched W))
  | [] => []
  | node :: rest => node.watched first :: watchedFrom (first + 1) rest

theorem Node.watchedFrom_append (first : Nat) (left right : List (Node W)) :
    watchedFrom first (left ++ right) =
      watchedFrom first left ++ watchedFrom (first + left.length) right := by
  induction left generalizing first with
  | nil => rfl
  | cons node left ih =>
    rw [List.cons_append, watchedFrom, watchedFrom, ih, List.cons_append, List.length_cons,
      Nat.add_right_comm, Nat.add_assoc]

/-- What a watched node does, and what it enters. -/
theorem Node.outcome_watched (node : Node W) (segment : Nat) (operation : Operation)
    (state : State (Watched W)) :
    ((node.watched segment).perform operation).outcome state =
      ((node.call segment operation state.unwatched).answer,
        (node.call segment operation state.unwatched).after.watched
          (state.calls ++ [node.call segment operation state.unwatched])) := by
  cases operation with
  | evaluate => simp only [perform, call, Eval.outcome_map]; rfl
  | assign value => simp only [perform, call, Eval.outcome_map]; rfl
  | isAssignable => simp only [perform, call, Eval.outcome_map]; rfl

namespace Chain

/-! ## A chain as one computation for all operations -/

theorem perform_nil (head : Node W) (span : Span) (operation : Operation) :
    (node head [] span).perform operation = head.perform operation := by
  cases operation <;> rfl

/-- Whatever is asked of a chain of more than one segment is asked of the last segment, in the scope of
the value of those before. -/
theorem perform_concat (head : Node W) (middle : List (Node W)) (last : Node W) (span : Span)
    (operation : Operation) :
    (node head (middle ++ [last]) span).perform operation = (do
      let correct := operation.corrects (← get).config
      let target ← read correct head middle
      Eval.inScope target (Eval.positioned correct last.span (last.perform operation))) := by
  cases operation with
  | evaluate =>
    show Answer.value <$> evaluate head (middle ++ [last]) = _
    rw [evaluate_concat]
    simp only [map_bind, Eval.map_inScope, Eval.map_positioned]
    rfl
  | assign value =>
    show (fun _ => Answer.stored) <$> atLast head (middle ++ [last]) (·.assign value) = _
    rw [atLast_concat]
    simp only [map_bind, Eval.map_inScope, Eval.map_positioned]
    rfl
  | isAssignable =>
    show Answer.verdict <$> atLast head (middle ++ [last]) (·.isAssignable) = _
    rw [atLast_concat]
    simp only [map_bind, Eval.map_inScope, Eval.map_positioned]
    rfl

end Chain

/-! ## Watching changes nothing -/

/-- A computation does in a world with a transcript what another one does without. -/
def Eval.Mirrors (watched : Eval (Watched W) α) (bare : Eval W α) : Prop :=
  ∀ state, bare.outcome state.unwatched =
    ((watched.outcome state).1, (watched.outcome state).2.unwatched)

namespace Eval

theorem mirrors_bind {watched : Eval (Watched W) α} {bare : Eval W α}
    {next : α → Eval (Watched W) β} {next' : α → Eval W β} (before : watched.Mirrors bare)
    (after : ∀ value, (next value).Mirrors (next' value)) :
    Mirrors (watched >>= next) (bare >>= next') := by
  intro state
  rw [outcome_bind, outcome_bind, before state]
  rcases watched.outcome state with ⟨_ | value, reached⟩
  · rfl
  · exact after value reached

theorem mirrors_inScope (value : TypedValue) {watched : Eval (Watched W) α} {bare : Eval W α}
    (inside : watched.Mirrors bare) : Mirrors (inScope value watched) (inScope value bare) := by
  intro state
  have ended : bare.outcome (state.unwatched.push value) = _ := inside (state.push value)
  rw [outcome_inScope, outcome_inScope, ended]
  rfl

theorem mirrors_positioned (correct : Bool) (span : Span) {watched : Eval (Watched W) α}
    {bare : Eval W α} (inside : watched.Mirrors bare) :
    Mirrors (positioned correct span watched) (positioned correct span bare) := by
  intro state
  rw [outcome_positioned, outcome_positioned, inside state]

end Eval

theorem Node.mirrors_evaluate (node : Node W) (segment : Nat) :
    (node.watched segment).evaluate.Mirrors node.evaluate := fun _ => rfl

theorem Node.mirrors_perform (node : Node W) (segment : Nat) (operation : Operation) :
    ((node.watched segment).perform operation).Mirrors (node.perform operation) := by
  intro state
  rw [outcome_watched]
  rfl

namespace Chain

theorem mirrors_follow (correct : Bool) (segments : List (Node W)) (first : Nat)
    (value : TypedValue) :
    (follow correct (Node.watchedFrom first segments) value).Mirrors
      (follow correct segments value) := by
  induction segments generalizing first value with
  | nil => exact fun _ => rfl
  | cons segment rest ih =>
    apply Eval.mirrors_bind
    · apply Eval.mirrors_inScope
      apply Eval.mirrors_positioned
      exact segment.mirrors_evaluate first
    · exact ih (first + 1)

theorem mirrors_read (correct : Bool) (head : Node W) (middle : List (Node W)) :
    (read correct (head.watched 0) (Node.watchedFrom 1 middle)).Mirrors
      (read correct head middle) := by
  apply Eval.mirrors_bind
  · apply Eval.mirrors_positioned
    exact head.mirrors_evaluate 0
  · exact mirrors_follow correct middle 1

/-- A chain of watched nodes does what the chain of the nodes does. -/
theorem outcome_watched (head : Node W) (tail : List (Node W)) (span : Span) (operation : Operation) :
    ((node (head.watched 0) (Node.watchedFrom 1 tail) span).perform operation).Mirrors
      ((node head tail span).perform operation) := by
  rcases List.eq_nil_or_concat tail with rfl | ⟨middle, last, split⟩
  · rw [Node.watchedFrom, perform_nil, perform_nil]
    exact head.mirrors_perform 0 operation
  · rw [List.concat_eq_append] at split
    subst split
    rw [Node.watchedFrom_append, Node.watchedFrom, Node.watchedFrom, perform_concat, perform_concat]
    intro state
    have mirrors := Eval.mirrors_bind
      (mirrors_read (operation.corrects state.config) head middle) (fun target =>
        Eval.mirrors_inScope target (Eval.mirrors_positioned (operation.corrects state.config) last.span
          (last.mirrors_perform (1 + middle.length) operation)))
    exact mirrors state

end Chain

end DotChain
