import DotChain.Proofs.Calls

/-!
# Places of failures in chains

The failure of a chain is the failure of the first segment that fails, moved to that segment or left where
it is. Main statement: `Chain.failure_positioned`, for chains of any nodes and all three operations: only
errors of the expression are moved, only in chains of more than one segment, and those of writing and of
asking only if the configuration says so. Nothing but the place of an error changes.
-/

namespace DotChain

variable {W : Type}

/-- Errors of writing are moved exactly under one of the two policies. -/
theorem Config.correctsWrites_iff (config : Config) :
    config.correctsWrites = true ↔ config.positions = .readAndWrite := by
  simp [correctsWrites]

namespace Chain

/-- An operation on a chain calls segments that answer, and then a given one, which fails. -/
def FailsFirst (head : Node W) (tail : List (Node W)) (operation : Operation) (state : State W)
    (position : Nat) (failure : Failure) : Prop :=
  ∃ earlier call, transcript head tail operation state = earlier ++ [call] ∧
    (∀ other ∈ earlier, ∃ value, other.answer = .ok (.value value)) ∧
    call.segment = position ∧ call.answer = .error failure

/-- Calls that hand on to a last one have answered with values. -/
private theorem answered_of_handed {earlier : List (Call W)} {last : Call W}
    (handed : (earlier ++ [last]).IsChain Call.Hands) :
    ∀ other ∈ earlier, ∃ value, other.answer = .ok (.value value) := by
  induction earlier with
  | nil => exact List.forall_mem_nil _
  | cons first rest ih =>
    have later : (rest ++ [last]).IsChain Call.Hands := handed.tail
    refine List.forall_mem_cons.mpr ⟨?_, ih later⟩
    cases rest with
    | nil =>
      have hands : first.Hands last := (List.isChain_cons_cons.mp handed).1
      exact ⟨_, hands.context⟩
    | cons second rest =>
      have hands : first.Hands second := (List.isChain_cons_cons.mp handed).1
      exact ⟨_, hands.context⟩

/-- What the segment that fails was asked is how it has failed. -/
private theorem raised_of_failsFirst {head : Node W} {tail : List (Node W)} {operation : Operation}
    {state : State W} {position : Nat} {failure : Failure}
    (first : FailsFirst head tail operation state position failure) {segment : Node W}
    (found : (head :: tail)[position]? = some segment) :
    ∃ before, ((segment.perform (asked (tail.length + 1) operation position)).outcome before).1 =
      .error failure := by
  obtain ⟨earlier, call, calls, -, rfl, failed⟩ := first
  have talk := protocol head tail operation state
  have member : call ∈ transcript head tail operation state := by simp [calls]
  obtain ⟨node, found', real⟩ := talk.real call member
  obtain rfl : segment = node := Option.some.inj (found.symm.trans found')
  have asks : call.operation = asked (tail.length + 1) operation call.segment := talk.asks call member
  refine ⟨call.before, ?_⟩
  rw [← asks, ← failed, real]
  rfl

/-- A chain of which a segment fails has the failure of that segment, moved if failures of the operation
are. -/
private theorem result_of_failsFirst {head : Node W} {tail : List (Node W)} {operation : Operation}
    {state : State W} {position : Nat} {failure : Failure}
    (first : FailsFirst head tail operation state position failure) :
    ∃ segment, (head :: tail)[position]? = some segment ∧
      (watchedRun head tail operation state).1 =
        .error (moved (1 < (head :: tail).length && operation.corrects state.config) segment failure) := by
  obtain ⟨earlier, call, calls, -, rfl, failed⟩ := first
  obtain ⟨earlier', last, calls', ended⟩ := (protocol head tail operation state).ended
  obtain rfl : call = last :=
    List.singleton_inj.mp (List.append_inj' (calls.symm.trans calls') rfl).2
  rcases ended with ⟨answer, succeeded, -, -⟩ | ⟨cause, segment, failed', found, result⟩
  · rw [failed] at succeeded
    cases succeeded
  · rw [failed] at failed'
    cases failed'
    exact ⟨segment, found, result⟩

/-- A chain fails only because a segment does. -/
private theorem failsFirst_of_result {head : Node W} {tail : List (Node W)} {operation : Operation}
    {state : State W} {failure : Failure}
    (result : (watchedRun head tail operation state).1 = .error failure) :
    ∃ position cause, FailsFirst head tail operation state position cause := by
  have talk := protocol head tail operation state
  obtain ⟨earlier, last, calls, ended⟩ := talk.ended
  have handed := talk.handed
  rw [calls] at handed
  rcases ended with ⟨answer, -, -, succeeded⟩ | ⟨cause, segment, failed, -, -⟩
  · rw [result] at succeeded
    cases succeeded
  · exact ⟨last.segment, cause, earlier, last, calls, answered_of_handed handed, rfl, failed⟩

/-- How a chain fails. It fails if and only if a segment does, and then for the first one that fails: an
error of the application is the failure of the chain as it is. An error of the expression gets the place of
the segment, and keeps everything else, in chains of more than one segment when they are evaluated, and
when they are stored to or asked if the errors of writing are to be moved; otherwise it is the failure of
the chain as it is. -/
theorem failure_positioned (head : Node W) (tail : List (Node W)) (span : Span)
    (operation : Operation) (state : State W) :
    let result := (((node head tail span).perform operation).outcome state).1
    (∀ position failure, FailsFirst head tail operation state position failure →
      ∃ segment, (head :: tail)[position]? = some segment ∧
        (∃ before, ((segment.perform (asked (tail.length + 1) operation position)).outcome before).1 =
          .error failure) ∧
        (∀ error, failure = .host error → result = .error (.host error)) ∧
        (∀ error, failure = .eval error → tail ≠ [] →
          operation = .evaluate ∨ state.config.positions = .readAndWrite →
            result = .error (.eval ⟨error.fault, error.message, some segment.span, error.notes⟩)) ∧
        (operation ≠ .evaluate → state.config.positions = .readPathOnly → result = .error failure) ∧
        (tail = [] → result = .error failure)) ∧
    ((∃ failure, result = .error failure) →
      ∃ position failure, FailsFirst head tail operation state position failure) := by
  rw [outcome_eq_watchedRun]
  dsimp only
  refine ⟨?_, fun ⟨failure, result⟩ => failsFirst_of_result result⟩
  intro position failure first
  obtain ⟨segment, found, result⟩ := result_of_failsFirst first
  refine ⟨segment, found, raised_of_failsFirst first found, ?_, ?_, ?_, ?_⟩
  · rintro error rfl
    rw [result, moved]
    split <;> rfl
  · rintro error rfl several asks
    have long : 1 < (head :: tail).length := by
      have some := List.length_pos_iff.mpr several
      rw [List.length_cons]
      omega
    have corrects : operation.corrects state.config = true := by
      rcases asks with rfl | writes
      · rfl
      · rw [← Config.correctsWrites_iff] at writes
        cases operation <;> simp [Operation.corrects, writes]
    rw [result, moved, decide_eq_true long, corrects]
    rfl
  · intro writes policy
    have stays : operation.corrects state.config = false := by
      cases operation with
      | evaluate => exact absurd rfl writes
      | assign value => simp [Operation.corrects, Config.correctsWrites, policy]
      | isAssignable => simp [Operation.corrects, Config.correctsWrites, policy]
    rw [result, stays, Bool.and_false]
    rfl
  · rintro rfl
    exact result

/-- A segment at the bytes 4 to 7 that ends as given and touches no context. -/
private def placedSegment (ending : Scripted.Ending) : Node Scripted.World :=
  Scripted.Segment.node ⟨"placed", ⟨4, 7⟩, 0, [], ending, false⟩

/-- An error at another place, with words of its own and a note that has a place. -/
private def notedError : EvalError :=
  ⟨.undefinedVariable "x", "no such thing", some ⟨0, 1⟩, [⟨"seen here", some ⟨2, 3⟩⟩]⟩

/-- Errors of writing are moved. -/
private def movingState : State Scripted.World :=
  .initial .null ⟨none, .readAndWrite⟩ ⟨.empty, .empty⟩

/-- Storing through a chain whose second segment fails: the error is moved there, with its words and its
note. -/
theorem failure_positioned_noted :
    let head := placedSegment (.value .null)
    let tail := [placedSegment (.failure (.eval notedError)), placedSegment (.value .null)]
    FailsFirst head tail (.assign .null) movingState 1 (.eval notedError) ∧
      (((node head tail ⟨0, 9⟩).perform (.assign .null)).outcome movingState).1 =
        .error (.eval ⟨.undefinedVariable "x", "no such thing", some ⟨4, 7⟩,
          [⟨"seen here", some ⟨2, 3⟩⟩]⟩) := by
  intro head tail
  have first : FailsFirst head tail (.assign .null) movingState 1 (.eval notedError) :=
    ⟨[head.call 0 .evaluate movingState], _, rfl, List.forall_mem_singleton.mpr ⟨_, rfl⟩, rfl, rfl⟩
  obtain ⟨failing, -⟩ := failure_positioned head tail ⟨0, 9⟩ (.assign .null) movingState
  obtain ⟨segment, found, -, -, moves, -, -⟩ := failing 1 (.eval notedError) first
  obtain rfl := Option.some.inj found
  exact ⟨first, moves notedError rfl (List.cons_ne_nil _ _) (.inr rfl)⟩

end Chain

end DotChain
