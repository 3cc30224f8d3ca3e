import DotChain.Host

/-!
# Outcomes

What each way of building a computation does, as an equation on its outcome: the result and the state
that is left. Main statement: `outcome_bind`. What a success of a computation says of the computations that
it is built from stands apart: there the failures need not be followed.
-/

namespace DotChain.Eval

variable {W α β : Type}

@[simp] theorem outcome_mk (f : State W → Except Failure α × State W) (state : State W) :
    (mk f).outcome state = f state := rfl

@[simp] theorem outcome_pure (value : α) (state : State W) :
    (pure value : Eval W α).outcome state = (.ok value, state) := rfl

@[simp] theorem outcome_throw (failure : Failure) (state : State W) :
    (throw failure : Eval W α).outcome state = (.error failure, state) := rfl

@[simp] theorem outcome_get (state : State W) :
    (get : Eval W (State W)).outcome state = (.ok state, state) := rfl

@[simp] theorem outcome_set (final state : State W) :
    (set final : Eval W PUnit).outcome state = (.ok ⟨⟩, final) := rfl

@[simp] theorem outcome_modify (change : State W → State W) (state : State W) :
    (modify change : Eval W PUnit).outcome state = (.ok ⟨⟩, change state) := rfl

@[simp] theorem outcome_fault (fault : Fault) (span : Span) (state : State W) :
    (Eval.fault fault span : Eval W α).outcome state = (.error (.fault fault span), state) := rfl

/-- A computation goes on after a success; a failure ends it. -/
theorem outcome_bind (first : Eval W α) (next : α → Eval W β) (state : State W) :
    (first >>= next).outcome state =
      match first.outcome state with
      | (.ok value, reached) => (next value).outcome reached
      | (.error failure, reached) => (.error failure, reached) := by
  simp only [outcome, ExceptT.run, bind, ExceptT.bind, ExceptT.mk, StateT.bind, StateT.run,
    ExceptT.bindCont]
  rcases first state with ⟨result, reached⟩
  cases result <;> rfl

/-- What follows a success goes on with its value in the state that it left. -/
theorem outcome_bind_of_ok {first : Eval W α} {state reached : State W} {value : α}
    (succeeds : first.outcome state = (.ok value, reached)) (next : α → Eval W β) :
    (first >>= next).outcome state = (next value).outcome reached := by
  rw [outcome_bind, succeeds]

/-- A function of the value changes nothing else. -/
theorem outcome_map (f : α → β) (action : Eval W α) (state : State W) :
    (f <$> action).outcome state =
      ((action.outcome state).1.map f, (action.outcome state).2) := by
  rw [← bind_pure_comp, outcome_bind]
  rcases action.outcome state with ⟨result, reached⟩
  cases result <;> rfl

theorem outcome_orFault (found : Option α) (fault : Fault) (span : Span) (state : State W) :
    (orFault found fault span).outcome state =
      (match found with
        | some value => .ok value
        | none => .error (.fault fault span), state) := by
  cases found <;> rfl

theorem outcome_inScope (value : TypedValue) (body : Eval W α) (state : State W) :
    (inScope value body).outcome state =
      ((body.outcome (state.push value)).1,
        (body.outcome (state.push value)).2.cut state.contexts.length) := rfl

theorem outcome_inNode (span : Span) (body : Eval W α) (state : State W) :
    (inNode span body).outcome state =
      match state.exhausted? with
      | some limit => (.error (.fault (.recursionLimit limit) span), state)
      | none => ((body.outcome state.enter).1, (body.outcome state.enter).2.leave) := rfl

/-- What a node results in, where it may be entered. -/
theorem result_inNode {state : State W} (room : state.exhausted? = none) (span : Span) (body : Eval W α) :
    ((inNode span body).outcome state).1 = (body.outcome state.enter).1 := by
  rw [outcome_inNode, room]

theorem outcome_positioned (correct : Bool) (span : Span) (body : Eval W α) (state : State W) :
    (positioned correct span body).outcome state =
      ((body.outcome state).1.mapError fun failure =>
        if correct then failure.movedTo span else failure, (body.outcome state).2) := by
  unfold positioned
  rw [outcome_mk]
  rcases body.outcome state with ⟨result, reached⟩
  cases result <;> rfl

/-- Errors that are not to be moved stay where they are. -/
theorem positioned_false (span : Span) (body : Eval W α) : positioned false span body = body := by
  funext state
  show (positioned false span body).outcome state = body.outcome state
  rw [outcome_positioned]
  rcases body.outcome state with ⟨result, reached⟩
  cases result <;> rfl

/-- A function of the value may as well be applied inside a scope. -/
theorem map_inScope (f : α → β) (value : TypedValue) (body : Eval W α) :
    f <$> inScope value body = inScope value (f <$> body) := by
  funext state
  show (f <$> inScope value body).outcome state = (inScope value (f <$> body)).outcome state
  rw [outcome_map, outcome_inScope, outcome_inScope, outcome_map]

/-- A function of the value may as well be applied inside a node. -/
theorem map_inNode (f : α → β) (span : Span) (body : Eval W α) :
    f <$> inNode span body = inNode span (f <$> body) := by
  funext state
  show (f <$> inNode span body).outcome state = (inNode span (f <$> body)).outcome state
  rw [outcome_map, outcome_inNode, outcome_inNode, outcome_map]
  cases state.exhausted? <;> rfl

/-- A function of the value does not matter to errors that are moved. -/
theorem map_positioned (f : α → β) (correct : Bool) (span : Span) (body : Eval W α) :
    f <$> positioned correct span body = positioned correct span (f <$> body) := by
  funext state
  show (f <$> positioned correct span body).outcome state =
    (positioned correct span (f <$> body)).outcome state
  rw [outcome_map, outcome_positioned, outcome_positioned, outcome_map]
  rcases body.outcome state with ⟨result, reached⟩
  cases result <;> rfl

theorem outcome_host (action : HostAction W α) (state : State W) :
    (Eval.host action).outcome state =
      (((ExceptT.run action).run state.store).1.mapError .host,
        { state with store := ((ExceptT.run action).run state.store).2 }) := rfl

/-! ## Successes -/

section
variable {state final : State W} {result : β}

theorem pure_ok_iff {value : β} :
    (pure value : Eval W β).outcome state = (.ok result, final) ↔ value = result ∧ state = final := by
  simp

/-- A computation that goes on succeeds exactly if both its parts do. -/
theorem bind_ok_iff {first : Eval W α} {next : α → Eval W β} :
    (first >>= next).outcome state = (.ok result, final) ↔
      ∃ value reached, first.outcome state = (.ok value, reached) ∧
        (next value).outcome reached = (.ok result, final) := by
  rw [outcome_bind]
  rcases first.outcome state with ⟨failure | value, reached⟩
  · simp
  · simp [and_assoc]

/-- What looks at the state goes on in it. -/
theorem outcome_get_bind (next : State W → Eval W β) (state : State W) :
    (get >>= next).outcome state = (next state).outcome state := by
  rw [outcome_bind, outcome_get]

theorem orFault_ok_iff {found : Option β} {fault : Fault} {span : Span} :
    (orFault found fault span).outcome state = (.ok result, final) ↔
      found = some result ∧ state = final := by
  rw [outcome_orFault]
  cases found <;> simp

theorem inScope_ok_iff {value : TypedValue} {body : Eval W β} :
    (inScope value body).outcome state = (.ok result, final) ↔
      ∃ reached, body.outcome (state.push value) = (.ok result, reached) ∧
        reached.cut state.contexts.length = final := by
  rw [outcome_inScope]
  rcases body.outcome (state.push value) with ⟨failure | value, reached⟩
  · simp
  · simp [and_assoc]

/-- A node succeeds exactly if it may be entered and what is inside succeeds. -/
theorem inNode_ok_iff {span : Span} {body : Eval W β} :
    (inNode span body).outcome state = (.ok result, final) ↔
      state.exhausted? = none ∧
        ∃ reached, body.outcome state.enter = (.ok result, reached) ∧ reached.leave = final := by
  rw [outcome_inNode]
  cases state.exhausted? with
  | some limit => simp
  | none =>
    rcases body.outcome state.enter with ⟨failure | value, reached⟩
    · simp
    · simp [and_assoc]

/-- Where an error would have its place does not matter to a success. -/
theorem positioned_ok_iff {correct : Bool} {span : Span} {body : Eval W β} :
    (positioned correct span body).outcome state = (.ok result, final) ↔
      body.outcome state = (.ok result, final) := by
  rw [outcome_positioned]
  rcases body.outcome state with ⟨failure | value, reached⟩
  · constructor <;> intro same <;> cases same
  · rfl

end

end DotChain.Eval
