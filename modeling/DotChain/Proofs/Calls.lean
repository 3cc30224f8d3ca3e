import DotChain.Transcript
import DotChain.Scripted.Segment
import DotChain.Proofs.Balance
import Mathlib.Data.List.Chain

/-!
# Calls of segments

A chain may have any nodes as segments. What it asks of them is read off the transcript of the chain whose
segments are watched. Main statements: `Chain.segments_called_in_order`, each segment is called once, in
order, with the value of the one before it as active context, until one fails; and
`Chain.leftovers_removed`, the active contexts are restored even if segments leave contexts of their own
behind or remove the one that was made for them. Segments that are expressions do neither
(`Chain.tidy_expressions`).
-/

namespace DotChain

variable {W : Type}

/-! ## Conversations -/

/-- The variables and all that is shared are as a call has left them. -/
structure Call.Left (call : Call W) (state : State W) : Prop where
  bindings : state.bindings = call.after.bindings
  store : state.store = call.after.store

theorem Call.Left.push {call : Call W} {state : State W} (left : call.Left state) (value : TypedValue) :
    call.Left (state.push value) := ⟨left.bindings, left.store⟩

/-- What one call hands to the next: the segments follow each other, the value of the first is the active
context of the second, and what the first has done is there. -/
structure Call.Hands (earlier later : Call W) : Prop where
  segment : later.segment = earlier.segment + 1
  context : earlier.answer = .ok (.value later.before.current)
  left : earlier.Left later.before

namespace Chain

/-- What is asked of a segment of a chain with so many segments, if something is asked of the chain. -/
def asked (count : Nat) (operation : Operation) (segment : Nat) : Operation :=
  if segment + 1 = count then operation else .evaluate

/-- Calls of the segments of a chain, from the first segment on and each handing on to the next. -/
structure Conversation (segments : List (Node W)) (operation : Operation) (entry : State W)
    (calls : List (Call W)) : Prop where
  /-- Every call is a call of the segment that it names. -/
  real : ∀ call ∈ calls, ∃ node, segments[call.segment]? = some node ∧
    call = node.call call.segment call.operation call.before
  /-- Only the last segment is asked for what the chain is asked for; all others are evaluated. -/
  asks : ∀ call ∈ calls, call.operation = asked segments.length operation call.segment
  /-- The first segment is called in the state in which the chain was. -/
  opened : ∃ first later, calls = first :: later ∧ first.segment = 0 ∧ first.before = entry
  handed : calls.IsChain Call.Hands

/-- The failure of a chain when a segment has failed. -/
def moved (correct : Bool) (node : Node W) (cause : Failure) : Failure :=
  if correct then cause.movedTo node.span else cause

/-- A conversation that lasts until a segment fails or the last one has answered, and the result of the
chain. -/
structure Protocol (segments : List (Node W)) (operation : Operation) (entry : State W)
    (calls : List (Call W)) (result : Except Failure Answer) : Prop
    extends Conversation segments operation entry calls where
  ended : ∃ earlier last, calls = earlier ++ [last] ∧
    ((∃ answer, last.answer = .ok answer ∧ last.segment + 1 = segments.length ∧
      result = .ok answer) ∨
    ∃ cause node, last.answer = .error cause ∧ segments[last.segment]? = some node ∧
      result = .error (moved (1 < segments.length && operation.corrects entry.config) node cause))

namespace Conversation

variable {segments : List (Node W)} {operation : Operation} {entry : State W}

theorem start (operation : Operation) (entry : State W) {node : Node W}
    (found : segments[0]? = some node) :
    Conversation segments operation entry
      [node.call 0 (asked segments.length operation 0) entry] where
  real := by
    intro call member
    rw [List.mem_singleton] at member
    subst member
    exact ⟨node, found, rfl⟩
  asks := by
    intro call member
    rw [List.mem_singleton] at member
    subst member
    rfl
  opened := ⟨_, [], rfl, rfl, rfl⟩
  handed := .singleton _

/-- After a value the next segment may be called, with that value as active context. -/
theorem next {earlier : List (Call W)} {last : Call W}
    (talk : Conversation segments operation entry (earlier ++ [last])) {node : Node W}
    (found : segments[last.segment + 1]? = some node) (before : State W)
    (handed : last.answer = .ok (.value before.current)) (left : last.Left before) :
    Conversation segments operation entry ((earlier ++ [last]) ++
      [node.call (last.segment + 1) (asked segments.length operation (last.segment + 1)) before]) where
  real := by
    intro call member
    rcases List.mem_append.mp member with old | new
    · exact talk.real call old
    · rw [List.mem_singleton] at new
      subst new
      exact ⟨node, found, rfl⟩
  asks := by
    intro call member
    rcases List.mem_append.mp member with old | new
    · exact talk.asks call old
    · rw [List.mem_singleton] at new
      subst new
      rfl
  opened := by
    obtain ⟨first, later, split, opening⟩ := talk.opened
    exact ⟨first, later ++ [_], by rw [split]; rfl, opening⟩
  handed := by
    rw [List.isChain_append]
    refine ⟨talk.handed, .singleton _, ?_⟩
    intro x isLast y isFirst
    rw [List.getLast?_concat] at isLast
    cases isLast
    cases isFirst
    exact ⟨rfl, handed, left⟩

/-- Calls that hand on to each other are calls of consecutive segments. -/
private theorem numbered_from {first : Call W} {later : List (Call W)}
    (handed : (first :: later).IsChain Call.Hands) :
    (first :: later).map (·.segment) = List.range' first.segment (later.length + 1) := by
  induction later generalizing first with
  | nil => rfl
  | cons next later ih =>
    rw [List.isChain_cons_cons] at handed
    rw [List.map_cons, ih handed.2, handed.1.segment, ← List.range'_succ, List.length_cons]

/-- The segments are called in order, none twice and none left out. -/
theorem numbered {calls : List (Call W)} (talk : Conversation segments operation entry calls) :
    calls.map (·.segment) = List.range calls.length := by
  obtain ⟨first, later, rfl, opened, -⟩ := talk.opened
  rw [numbered_from talk.handed, opened, List.length_cons, List.range_eq_range']

end Conversation

/-! ## Reading -/

/-- How reading through segments may end: with the value of the segment called last, so many segments from
the first, or with its failure. -/
inductive Heard (segments : List (Node W)) (operation : Operation) (entry : State W) (correct : Bool)
    (count : Nat) : Except Failure TypedValue → State (Watched W) → Prop
  | value {earlier : List (Call W)} {last : Call W} {value : TypedValue} {reached : State (Watched W)}
    (made : reached.calls = earlier ++ [last])
    (talk : Conversation segments operation entry (earlier ++ [last])) (number : last.segment + 1 = count)
    (answer : last.answer = .ok (.value value)) (left : last.Left reached.unwatched) :
    Heard segments operation entry correct count (.ok value) reached
  | failure {earlier : List (Call W)} {last : Call W} {cause : Failure} {node : Node W}
    {reached : State (Watched W)} (made : reached.calls = earlier ++ [last])
    (talk : Conversation segments operation entry (earlier ++ [last]))
    (answer : last.answer = .error cause) (found : segments[last.segment]? = some node) :
    Heard segments operation entry correct count (.error (moved correct node cause)) reached

section
variable {segments : List (Node W)} {operation : Operation} {entry : State W} {correct : Bool}

/-- The state in which a chain goes on after a call in the scope of a value. -/
def resumed (state : State (Watched W)) (call : Call W) : State (Watched W) :=
  (call.after.watched (state.calls ++ [call])).cut state.contexts.length

/-- The evaluation of a watched segment, errors moved, and the call that it enters. -/
private theorem outcome_evaluated (correct : Bool) (node : Node W) (segment : Nat)
    (state : State (Watched W)) :
    (Eval.positioned correct (node.watched segment).span (node.watched segment).evaluate).outcome state =
      ((node.evaluate.outcome state.unwatched).1.mapError (moved correct node),
        (node.call segment .evaluate state.unwatched).after.watched
          (state.calls ++ [node.call segment .evaluate state.unwatched])) := by
  rw [Eval.outcome_positioned, Node.call, Node.perform, Eval.outcome_map]
  rfl

/-- The evaluation of a watched segment in the scope of a value. -/
private theorem outcome_followed (correct : Bool) (node : Node W) (segment : Nat) (value : TypedValue)
    (state : State (Watched W)) :
    (Eval.inScope value (Eval.positioned correct (node.watched segment).span
        (node.watched segment).evaluate)).outcome state =
      ((node.evaluate.outcome (state.unwatched.push value)).1.mapError (moved correct node),
        resumed state (node.call segment .evaluate (state.unwatched.push value))) := by
  rw [Eval.outcome_inScope, outcome_evaluated]
  rfl

/-- Any operation of a watched segment in the scope of a value. -/
private theorem outcome_scoped (correct : Bool) (node : Node W) (segment : Nat) (operation : Operation)
    (value : TypedValue) (state : State (Watched W)) :
    (Eval.inScope value (Eval.positioned correct (node.watched segment).span
        ((node.watched segment).perform operation))).outcome state =
      ((node.call segment operation (state.unwatched.push value)).answer.mapError (moved correct node),
        resumed state (node.call segment operation (state.unwatched.push value))) := by
  rw [Eval.outcome_inScope, Eval.outcome_positioned, Node.outcome_watched]
  rfl

/-- A failure is heard whatever was still to come. -/
private theorem Heard.later {count : Nat} {failure : Failure} {reached : State (Watched W)}
    (heard : Heard segments operation entry correct count (.error failure) reached) (other : Nat) :
    Heard segments operation entry correct other (.error failure) reached := by
  cases heard with
  | failure made talk answer found => exact .failure made talk answer found

/-- A conversation of evaluations is heard in the state that the last of them has left. -/
private theorem heard_evaluated {earlier : List (Call W)} {node : Node W} {segment : Nat}
    {before : State W}
    (talk : Conversation segments operation entry (earlier ++ [node.call segment .evaluate before]))
    (found : segments[segment]? = some node) {reached : State (Watched W)}
    (made : reached.calls = earlier ++ [node.call segment .evaluate before])
    (left : (node.call segment .evaluate before).Left reached.unwatched) (correct : Bool) :
    Heard segments operation entry correct (segment + 1)
      ((node.evaluate.outcome before).1.mapError (moved correct node)) reached := by
  have told : (node.call segment .evaluate before).answer =
      (node.evaluate.outcome before).1.map .value := by
    rw [Node.call, Node.perform, Eval.outcome_map]
  cases ended : (node.evaluate.outcome before).1 with
  | ok result =>
    rw [ended] at told
    exact .value made talk rfl told left
  | error cause =>
    rw [ended] at told
    exact .failure made talk told found

/-- The first call is heard. -/
private theorem heard_first (operation : Operation) (entry : State W) (correct : Bool) {node : Node W}
    (found : segments[0]? = some node) (inner : 1 < segments.length) :
    Heard segments operation entry correct 1
      ((node.evaluate.outcome entry).1.mapError (moved correct node))
      ((node.call 0 .evaluate entry).after.watched ([] ++ [node.call 0 .evaluate entry])) := by
  have reads : asked segments.length operation 0 = .evaluate := by
    rw [asked, if_neg (by omega)]
  have talk := Conversation.start operation entry found
  rw [reads] at talk
  exact heard_evaluated talk found rfl ⟨rfl, rfl⟩ correct

/-- One more call is heard when the segment before it has a value. -/
private theorem heard_next {count : Nat} {reached : State (Watched W)} {value : TypedValue}
    (before : Heard segments operation entry correct count (.ok value) reached) {node : Node W}
    (found : segments[count]? = some node) (inner : count + 1 < segments.length) :
    Heard segments operation entry correct (count + 1)
      ((node.evaluate.outcome (reached.unwatched.push value)).1.mapError (moved correct node))
      (resumed reached (node.call count .evaluate (reached.unwatched.push value))) := by
  cases before with
  | @value earlier last _ _ made talk number answer left =>
    subst number
    have reads : asked segments.length operation (last.segment + 1) = .evaluate := by
      rw [asked, if_neg (by omega)]
    have further := talk.next found (reached.unwatched.push value) answer (left.push value)
    rw [reads] at further
    refine heard_evaluated further found ?_ ⟨rfl, rfl⟩ correct
    rw [← made]
    rfl

/-- Following segments goes on with a conversation. -/
private theorem heard_follow {rest : List (Node W)} {count : Nat} {value : TypedValue}
    {state : State (Watched W)}
    (before : Heard segments operation entry correct count (.ok value) state)
    (found : ∀ (i : Nat) (node : Node W), rest[i]? = some node → segments[count + i]? = some node)
    (inner : count + rest.length < segments.length) :
    let run := (follow correct (Node.watchedFrom count rest) value).outcome state
    Heard segments operation entry correct (count + rest.length) run.1 run.2 := by
  -- What was heard so far is in the transcript of the state, so the state varies in the induction.
  induction rest generalizing count value state with
  | nil => exact before
  | cons node rest ih =>
    rw [List.length_cons] at inner
    have visited := heard_next before (found 0 node rfl) (by omega)
    dsimp only
    rw [Node.watchedFrom, follow, Eval.outcome_bind, outcome_followed]
    generalize (node.evaluate.outcome (state.unwatched.push value)).1 = ended at visited ⊢
    cases ended with
    | ok result =>
      rw [List.length_cons, Nat.add_comm rest.length 1, ← Nat.add_assoc]
      apply ih
      · exact visited
      · intro i other later
        rw [Nat.add_assoc, Nat.add_comm 1 i]
        exact found (i + 1) other later
      · omega
    | error cause => exact visited.later _

/-- A chain whose reading has failed calls no other segment. -/
private theorem Heard.failed {count : Nat} {failure : Failure} {reached : State (Watched W)}
    (heard : Heard segments operation entry (operation.corrects entry.config) count (.error failure)
      reached)
    (several : 1 < segments.length) :
    Protocol segments operation entry reached.calls (.error failure) := by
  cases heard with
  | @failure earlier last cause node _ made talk answer found =>
    rw [made]
    refine ⟨talk, earlier, last, rfl, .inr ⟨cause, node, answer, found, ?_⟩⟩
    rw [decide_eq_true several, Bool.true_and]

/-- A chain that has been read calls its last segment. -/
private theorem Heard.last {count : Nat} {value : TypedValue} {reached : State (Watched W)}
    (heard : Heard segments operation entry (operation.corrects entry.config) count (.ok value) reached)
    {final : Node W} (found : segments[count]? = some final) (whole : count + 1 = segments.length) :
    Protocol segments operation entry
      (reached.calls ++ [final.call count operation (reached.unwatched.push value)])
      ((final.call count operation (reached.unwatched.push value)).answer.mapError
        (moved (operation.corrects entry.config) final)) := by
  cases heard with
  | @value earlier latest _ _ made talk number answer left =>
    subst number
    have asks : asked segments.length operation (latest.segment + 1) = operation := by
      rw [asked, if_pos whole]
    have further := talk.next found (reached.unwatched.push value) answer (left.push value)
    rw [asks] at further
    rw [made]
    refine ⟨further, _, _, rfl, ?_⟩
    cases (final.call (latest.segment + 1) operation (reached.unwatched.push value)).answer with
    | ok answer => exact .inl ⟨answer, rfl, whole, rfl⟩
    | error cause =>
      refine .inr ⟨cause, final, rfl, found, ?_⟩
      have several : 1 < segments.length := by omega
      rw [decide_eq_true several, Bool.true_and]
      rfl

end

/-- Reading a chain up to its last segment is a conversation with the others. -/
private theorem heard_read (head : Node W) (middle : List (Node W)) (last : Node W)
    (operation : Operation) (correct : Bool) (entry : State W) :
    let run := (read correct (head.watched 0) (Node.watchedFrom 1 middle)).outcome (entry.watched [])
    Heard (head :: (middle ++ [last])) operation entry correct (middle.length + 1) run.1 run.2 := by
  have inner : middle.length + 1 < (head :: (middle ++ [last])).length := by simp
  have first := heard_first operation entry correct
    (show (head :: (middle ++ [last]))[0]? = some head from rfl) (by omega)
  dsimp only
  rw [read, Eval.outcome_bind, outcome_evaluated, State.unwatched_watched, State.calls_watched]
  generalize (head.evaluate.outcome entry).1 = ended at first ⊢
  cases ended with
  | ok value =>
    rw [Nat.add_comm]
    apply heard_follow first
    · intro i node found
      rw [Nat.add_comm 1 i, List.getElem?_cons_succ]
      exact List.getElem?_append_left (List.getElem?_eq_some_iff.mp found).1 ▸ found
    · omega
  | error cause => exact first.later _

/-! ## The transcript of a chain -/

/-- How a chain whose segments are watched runs from a state, beginning a transcript. -/
def watchedRun (head : Node W) (tail : List (Node W)) (operation : Operation) (state : State W) :
    Except Failure Answer × State (Watched W) :=
  ((node (head.watched 0) (Node.watchedFrom 1 tail) .unplaced).perform operation).outcome
    (state.watched [])

/-- The calls of its segments that a chain makes when it runs from a state. -/
def transcript (head : Node W) (tail : List (Node W)) (operation : Operation) (state : State W) :
    List (Call W) := (watchedRun head tail operation state).2.calls

/-- A watched run is the run itself. -/
theorem outcome_eq_watchedRun (head : Node W) (tail : List (Node W)) (span : Span)
    (operation : Operation) (state : State W) :
    ((node head tail span).perform operation).outcome state =
      ((watchedRun head tail operation state).1, (watchedRun head tail operation state).2.unwatched) :=
  outcome_watched head tail .unplaced operation (state.watched [])

/-- A watched chain of one segment. -/
private theorem watchedRun_nil (head : Node W) (operation : Operation) (state : State W) :
    watchedRun head [] operation state =
      ((head.call 0 operation state).answer,
        (head.call 0 operation state).after.watched [head.call 0 operation state]) := by
  rw [watchedRun, Node.watchedFrom, perform_nil, Node.outcome_watched]
  rfl

/-- A watched chain of more segments: the last one is called after the others were read. -/
private theorem watchedRun_concat (head : Node W) (middle : List (Node W)) (last : Node W)
    (operation : Operation) (state : State W) :
    watchedRun head (middle ++ [last]) operation state =
      (read (operation.corrects state.config) (head.watched 0) (Node.watchedFrom 1 middle) >>=
        fun target => Eval.inScope target (Eval.positioned (operation.corrects state.config)
          (last.watched (1 + middle.length)).span
          ((last.watched (1 + middle.length)).perform operation))).outcome (state.watched []) := by
  rw [watchedRun, Node.watchedFrom_append, Node.watchedFrom, Node.watchedFrom, perform_concat,
    Eval.outcome_bind, Eval.outcome_get]
  rfl

/-- The calls of a chain are a conversation that ends as it should, whatever the segments do. -/
theorem protocol (head : Node W) (tail : List (Node W)) (operation : Operation) (state : State W) :
    Protocol (head :: tail) operation state (transcript head tail operation state)
      (watchedRun head tail operation state).1 := by
  rcases List.eq_nil_or_concat tail with rfl | ⟨middle, last, split⟩
  · rw [transcript, watchedRun_nil]
    refine ⟨Conversation.start operation state rfl, [], _, rfl, ?_⟩
    cases (head.call 0 operation state).answer with
    | ok answer => exact .inl ⟨answer, rfl, rfl, rfl⟩
    | error cause => exact .inr ⟨cause, head, rfl, rfl, rfl⟩
  · rw [List.concat_eq_append] at split
    subst split
    have several : 1 < (head :: (middle ++ [last])).length := by simp
    have found : (head :: (middle ++ [last]))[middle.length + 1]? = some last := by
      rw [List.getElem?_cons_succ, List.getElem?_concat_length]
    have heard := heard_read head middle last operation (operation.corrects state.config) state
    rw [transcript, watchedRun_concat, Eval.outcome_bind, Nat.add_comm]
    dsimp only at heard
    generalize (read (operation.corrects state.config) (head.watched 0)
      (Node.watchedFrom 1 middle)).outcome (state.watched []) = ended at heard ⊢
    rcases ended with ⟨failure | value, reached⟩
    · exact heard.failed several
    · dsimp only
      rw [outcome_scoped]
      exact heard.last found (by simp)

/-! ## Contexts between calls -/

end Chain

/-- Changes of a stack, by pushing and removing single contexts, that leave at no moment less than a given
number of them. -/
inductive StaysAbove (floor : Nat) (stack : List TypedValue) : List TypedValue → Prop
  | refl : StaysAbove floor stack stack
  | push {final : List TypedValue} (value : TypedValue) (before : StaysAbove floor stack final) :
    StaysAbove floor stack (value :: final)
  | pop {value : TypedValue} {final : List TypedValue} (before : StaysAbove floor stack (value :: final))
    (enough : floor ≤ final.length) : StaysAbove floor stack final

/-- What lies below the floor stays. -/
theorem StaysAbove.keeps {older stack final : List TypedValue}
    (stays : StaysAbove older.length stack final) (below : older <:+ stack) : older <:+ final := by
  induction stays with
  | refl => exact below
  | push value _ ih => exact ih.trans (List.suffix_cons value _)
  | pop _ enough ih =>
    rcases List.suffix_cons_iff.mp ih with whole | part
    · rw [whole, List.length_cons] at enough
      omega
    · exact part

namespace Call

/-- The segment has left the active contexts as it found them. -/
def Tidy (call : Call W) : Prop := call.after.contexts = call.before.contexts

/-- Whatever the segment has done to the contexts, it never went below the innermost one, the one that was
made for it. -/
def Contained (call : Call W) : Prop :=
  StaysAbove (call.before.contexts.length - 1) call.before.contexts call.after.contexts

/-- The segment saw one context more than those given. -/
def Above (contexts : List TypedValue) (call : Call W) : Prop :=
  call.before.contexts = call.before.current :: contexts

theorem Tidy.contained {call : Call W} (tidy : call.Tidy) : call.Contained := by
  rw [Contained, tidy]
  exact .refl

/-- A call in a scope leaves what was there before the scope. -/
theorem Contained.keeps {call : Call W} (contained : call.Contained) {contexts : List TypedValue}
    (above : call.Above contexts) : contexts <:+ call.after.contexts := by
  rw [Contained, above] at contained
  exact contained.keeps (List.suffix_cons _ contexts)

/-- An expression leaves the active contexts as it found them, whatever is asked of it. -/
theorem tidy_expression [Host W] (e : Expr) (segment : Nat) (operation : Operation) (before : State W) :
    (e.node.call segment operation before).Tidy := by
  have kept := e.keeps (Law.balance_writing (W := W))
  cases operation with
  | evaluate =>
    rw [Tidy, Node.call, Node.perform, Eval.outcome_map]
    exact (kept.evaluate before).leads.contexts
  | assign value =>
    rw [Tidy, Node.call, Node.perform, Eval.outcome_map]
    exact (kept.assign value before).leads.contexts
  | isAssignable =>
    rw [Tidy, Node.call, Node.perform, Eval.outcome_map]
    exact (kept.isAssignable before).leads.contexts

end Call

namespace Chain

/-- From one state to another a transcript has grown, and if none of the new calls has reached below its own
context, then the contexts are what they were and every new call has seen one more. -/
def Restores (start final : State (Watched W)) : Prop :=
  ∃ made, final.calls = start.calls ++ made ∧ ((∀ call ∈ made, call.Contained) →
    final.contexts = start.contexts ∧ ∀ call ∈ made, call.Above start.contexts)

namespace Restores

theorem refl (state : State (Watched W)) : Restores state state :=
  ⟨[], by simp, fun _ => ⟨rfl, by simp⟩⟩

theorem trans {start between final : State (Watched W)} (before : Restores start between)
    (after : Restores between final) : Restores start final := by
  obtain ⟨made, grown, kept⟩ := before
  obtain ⟨more, grown', kept'⟩ := after
  refine ⟨made ++ more, by rw [grown', grown, List.append_assoc], ?_⟩
  intro contained
  obtain ⟨same, above⟩ := kept fun call member => contained call (List.mem_append_left _ member)
  obtain ⟨same', above'⟩ := kept' fun call member => contained call (List.mem_append_right _ member)
  refine ⟨same'.trans same, ?_⟩
  intro call member
  rcases List.mem_append.mp member with old | new
  · exact above call old
  · rw [← same]
    exact above' call new

theorem bind {α β : Type} {first : Eval (Watched W) α} {next : α → Eval (Watched W) β}
    {start state : State (Watched W)} (before : Restores start (first.outcome state).2)
    (after : ∀ value between, Restores between ((next value).outcome between).2) :
    Restores start ((first >>= next).outcome state).2 := by
  rw [Eval.outcome_bind]
  generalize first.outcome state = ended at before ⊢
  rcases ended with ⟨_ | value, reached⟩
  · exact before
  · exact before.trans (after value reached)

end Restores

/-- A call in a scope, whatever it leaves behind. -/
private theorem restores_resumed (state : State (Watched W)) (node : Node W) (segment : Nat)
    (operation : Operation) (value : TypedValue) :
    Restores state (resumed state (node.call segment operation (state.unwatched.push value))) := by
  refine ⟨[_], rfl, ?_⟩
  intro contained
  have above : (node.call segment operation (state.unwatched.push value)).Above state.contexts := rfl
  refine ⟨?_, ?_⟩
  · obtain ⟨newer, split⟩ := (contained _ (List.mem_singleton_self _)).keeps above
    exact State.contexts_cut _ newer state.contexts split.symm
  · intro call member
    rw [List.mem_singleton] at member
    rw [member]
    exact above

private theorem restores_follow (correct : Bool) (rest : List (Node W)) (first : Nat)
    (value : TypedValue) (state : State (Watched W)) :
    Restores state ((follow correct (Node.watchedFrom first rest) value).outcome state).2 := by
  induction rest generalizing first value state with
  | nil => exact Restores.refl state
  | cons node rest ih =>
    rw [Node.watchedFrom, follow]
    apply Restores.bind
    · rw [outcome_followed]
      exact restores_resumed state node first .evaluate value
    · exact ih (first + 1)

/-- The call with which a chain begins. -/
def opening (head : Node W) (tail : List (Node W)) (operation : Operation) (state : State W) : Call W :=
  head.call 0 (asked (tail.length + 1) operation 0) state

/-- After its first call a chain only calls segments in scopes. -/
private theorem restores_watchedRun (head : Node W) (tail : List (Node W)) (operation : Operation)
    (state : State W) :
    Restores ((opening head tail operation state).after.watched [opening head tail operation state])
      (watchedRun head tail operation state).2 := by
  rcases List.eq_nil_or_concat tail with rfl | ⟨middle, last, split⟩
  · rw [watchedRun_nil]
    exact Restores.refl _
  · rw [List.concat_eq_append] at split
    subst split
    have reads : asked ((middle ++ [last]).length + 1) operation 0 = .evaluate := by
      rw [asked, if_neg (by simp)]
    rw [opening, reads, watchedRun_concat]
    apply Restores.bind
    · apply Restores.bind
      · rw [outcome_evaluated]
        exact Restores.refl _
      · exact restores_follow (operation.corrects state.config) middle 1
    · intro target reached
      rw [outcome_scoped]
      exact restores_resumed reached last (1 + middle.length) operation target

/-- What happens between the calls: the first call of a transcript is the opening one, and if no later one
has reached below its own context, then the contexts are those that the first segment has left, and all
later segments saw one more. -/
private theorem transcript_restores (head : Node W) (tail : List (Node W)) (operation : Operation)
    (state : State W) :
    let calls := transcript head tail operation state
    calls = opening head tail operation state :: calls.tail ∧
      ((∀ call ∈ calls.tail, call.Contained) →
        (watchedRun head tail operation state).2.contexts =
            (opening head tail operation state).after.contexts ∧
          ∀ call ∈ calls.tail, call.Above (opening head tail operation state).after.contexts) := by
  obtain ⟨made, grown, kept⟩ := restores_watchedRun head tail operation state
  have split : transcript head tail operation state = opening head tail operation state :: made := grown
  dsimp only
  rw [split]
  exact ⟨rfl, kept⟩

/-- All calls in a chain of expressions leave the active contexts as they found them. -/
theorem tidy_expressions [Host W] (head : Expr) (tail : List Expr) (operation : Operation)
    (state : State W) :
    ∀ call ∈ transcript head.node (tail.map Expr.node) operation state, call.Tidy := by
  intro call member
  obtain ⟨node, found, same⟩ := (protocol _ _ operation state).real call member
  rw [← List.map_cons, List.getElem?_map] at found
  obtain ⟨e, -, rfl⟩ := Option.map_eq_some_iff.mp found
  rw [same]
  exact Call.tidy_expression e call.segment call.operation call.before

/-- How a chain calls its segments, if each of them leaves the active contexts as it found them. The first
segment is called in the state in which the chain is; each other one is called with the value of the one
before it as active context, one level above the contexts of the chain, and sees what that one has done. Each
but the last is evaluated, and the last is asked for what the chain is asked for. The first failure ends the
calls and is the failure of the chain, else the answer of the last segment is the chain's. A single segment
is the chain. -/
theorem segments_called_in_order (head : Node W) (tail : List (Node W)) (span : Span)
    (operation : Operation) (state : State W)
    (tidy : ∀ call ∈ transcript head tail operation state, call.Tidy) :
    let calls := transcript head tail operation state
    let watched := watchedRun head tail operation state
    ((node head tail span).perform operation).outcome state = (watched.1, watched.2.unwatched) ∧
      Protocol (head :: tail) operation state calls watched.1 ∧
      calls.map (·.segment) = List.range calls.length ∧
      (∀ call ∈ calls.tail, call.before.contexts = call.before.current :: state.contexts) ∧
      (tail = [] → (node head tail span).perform operation = head.perform operation) := by
  have talk := protocol head tail operation state
  obtain ⟨split, kept⟩ := transcript_restores head tail operation state
  have first : (opening head tail operation state).Tidy := tidy _ (by rw [split]; exact List.mem_cons_self)
  have contained : ∀ call ∈ (transcript head tail operation state).tail, call.Contained :=
    fun call member => (tidy call (List.mem_of_mem_tail member)).contained
  refine ⟨outcome_eq_watchedRun head tail span operation state, talk, talk.numbered, ?_, ?_⟩
  · intro call member
    have above := (kept contained).2 call member
    rw [first] at above
    exact above
  · rintro rfl
    exact perform_nil head span operation

/-- A segment whose value is a number and that touches no context. -/
private def numberSegment (number : Int64) : Node Scripted.World :=
  Scripted.Segment.node ⟨"number", .unplaced, 0, [], .value ⟨.int number, .int⟩, false⟩

/-- A segment that fails and touches no context. -/
private def failingSegment : Node Scripted.World :=
  Scripted.Segment.node ⟨"failing", .unplaced, 0, [], .failure (.host (.other "failed")), false⟩

/-- A state with one active context. -/
private def oneContext : State Scripted.World :=
  (State.initial .null .standard ⟨.empty, .empty⟩).push .null

/-- Storing through a chain whose second segment fails: the third one is not called. -/
theorem segments_called_in_order_failing :
    let tail := [failingSegment, numberSegment 3]
    (∀ call ∈ transcript (numberSegment 1) tail (.assign .null) oneContext, call.Tidy) ∧
      (transcript (numberSegment 1) tail (.assign .null) oneContext).map (·.segment) = [0, 1] := by
  have tidy : ∀ call ∈ transcript (numberSegment 1) [failingSegment, numberSegment 3] (.assign .null)
      oneContext, call.Tidy :=
    List.forall_mem_cons.mpr ⟨rfl, List.forall_mem_cons.mpr ⟨rfl, List.forall_mem_nil _⟩⟩
  obtain ⟨-, -, numbered, -, -⟩ := segments_called_in_order (numberSegment 1)
    [failingSegment, numberSegment 3] .unplaced (.assign .null) oneContext tidy
  exact ⟨tidy, numbered⟩

/-- Whatever the segments after the first leave behind is removed, on every way out, as long as none of them
reaches below the context that was made for it: the active contexts are those from before, and each segment
had the value of the one before it as active context, one level above them. -/
theorem leftovers_removed (head : Node W) (tail : List (Node W)) (span : Span) (operation : Operation)
    (state : State W)
    (tidy : ∀ call ∈ (transcript head tail operation state).head?, call.Tidy)
    (contained : ∀ call ∈ (transcript head tail operation state).tail, call.Contained) :
    let calls := transcript head tail operation state
    (((node head tail span).perform operation).outcome state).2.contexts = state.contexts ∧
      calls.IsChain Call.Hands ∧
      ∀ call ∈ calls.tail, call.before.contexts = call.before.current :: state.contexts := by
  obtain ⟨split, kept⟩ := transcript_restores head tail operation state
  have first : (opening head tail operation state).Tidy := tidy _ (by rw [split]; rfl)
  obtain ⟨same, above⟩ := kept contained
  rw [first] at same above
  rw [outcome_eq_watchedRun]
  exact ⟨same, (protocol head tail operation state).handed, above⟩

/-- A segment that removes its context and leaves two others. -/
private def carelessSegment (ending : Scripted.Ending) : Node Scripted.World :=
  Scripted.Segment.node ⟨"careless", .unplaced, 1, [.null, ⟨.int 5, .int⟩], ending, false⟩

/-- Two such segments, of which the second fails. -/
private def carelessTail : List (Node Scripted.World) :=
  [carelessSegment (.value .null), carelessSegment (.failure (.host (.other "failed")))]

/-- Each of them leaves two contexts in place of its own, and none of these is left in the end. -/
theorem leftovers_removed_careless :
    (∀ call ∈ (transcript (numberSegment 1) carelessTail .evaluate oneContext).tail,
      call.after.contexts = [⟨.int 5, .int⟩, .null, .null]) ∧
    (((node (numberSegment 1) carelessTail .unplaced).perform .evaluate).outcome oneContext).2.contexts =
      [.null] := by
  have tidy : ∀ call ∈ (transcript (numberSegment 1) carelessTail .evaluate oneContext).head?,
      call.Tidy := by
    rintro call ⟨⟩
    rfl
  have contained : ∀ call ∈ (transcript (numberSegment 1) carelessTail .evaluate oneContext).tail,
      call.Contained :=
    List.forall_mem_cons.mpr ⟨.push _ (.push _ (.pop .refl (by decide))),
      List.forall_mem_cons.mpr ⟨.push _ (.push _ (.pop .refl (by decide))), List.forall_mem_nil _⟩⟩
  obtain ⟨restored, -, -⟩ :=
    leftovers_removed (numberSegment 1) carelessTail .unplaced .evaluate oneContext tidy contained
  refine ⟨?_, restored⟩
  exact List.forall_mem_cons.mpr ⟨rfl, List.forall_mem_cons.mpr ⟨rfl, List.forall_mem_nil _⟩⟩

end Chain

end DotChain
