import DotChain.Act
import DotChain.Proofs.Locations

/-!
# What an act depends on

An act asks nothing of the parts of its expression but what the acts that it begins are. Main statements:
`Act.determined`, parts that behave alike in those acts may stand for one another, and `Realm.Admits.inCourse`,
acts in the course of one that keeps to a realm keep to it.
-/

namespace DotChain

variable {W α β : Type}

/-! ## Parts in place of one another -/

theorem Node.perform_nested (node : Node W) (operation : Operation) :
    node.nested.perform operation = Eval.inNode node.span (node.perform operation) := by
  cases operation <;> exact Eval.map_inNode _ node.span _

/-- The node of an expression, given the nodes of its parts. -/
def Expr.nodeOf [Host W] (parts : Expr → Node W) : Expr → Node W
  | literal value span => (Node.valueOnly "a literal" span (pure value.typed)).nested
  | property name _ span =>
    Node.nested ⟨span, Property.evaluate name span, Property.assign name span, Property.isAssignable name⟩
  | reference name span =>
    Node.nested ⟨span, Variable.evaluate name span, Variable.assign name span,
      pure (Variable.isAssignable name)⟩
  | indexer index span =>
    let key := (parts index).evaluate
    Node.nested ⟨span, Indexer.evaluate key span, Indexer.assign key span, Indexer.isAssignable key⟩
  | method name args _ span =>
    (Node.valueOnly "a method call" span
      (Method.evaluate name (args.map fun arg => (parts arg).evaluate) span)).nested
  | assign target value span => (Node.assignment (parts target) (parts value) span).nested
  | chain head tail span => (Chain.node (parts head) (tail.map parts) span).nested

theorem Expr.node_eq_nodeOf [Host W] (e : Expr) : (e.node : Node W) = e.nodeOf node := by
  cases e <;> simp [node, nodeOf, Function.comp_def]

/-- Computations that do the same in a state may go on in the same way. -/
theorem Eval.outcome_bind_congr {first other : Eval W α} {next next' : α → Eval W β} {state : State W}
    (same : other.outcome state = first.outcome state)
    (after : ∀ value reached, first.outcome state = (.ok value, reached) →
      (next' value).outcome reached = (next value).outcome reached) :
    (other >>= next').outcome state = (first >>= next).outcome state := by
  rw [outcome_bind, outcome_bind, same]
  rcases run : first.outcome state with ⟨failure | value, reached⟩
  · rfl
  · exact after value reached run

theorem Eval.outcome_inScope_congr {body other : Eval W α} {value : TypedValue} {state : State W}
    (same : other.outcome (state.push value) = body.outcome (state.push value)) :
    (inScope value other).outcome state = (inScope value body).outcome state := by
  rw [outcome_inScope, outcome_inScope, same]

theorem Eval.outcome_positioned_congr {body other : Eval W α} (correct : Bool) (span : Span) {state : State W}
    (same : other.outcome state = body.outcome state) :
    (positioned correct span other).outcome state = (positioned correct span body).outcome state := by
  rw [outcome_positioned, outcome_positioned, same]

theorem Eval.outcome_inNode_congr {body other : Eval W α} (span : Span) {state : State W}
    (same : state.exhausted? = none → other.outcome state.enter = body.outcome state.enter) :
    (inNode span other).outcome state = (inNode span body).outcome state := by
  rw [outcome_inNode, outcome_inNode]
  cases entered : state.exhausted? with
  | some limit => rfl
  | none => rw [same entered]

theorem Eval.outcome_map_congr {body other : Eval W α} (f : α → β) {state : State W}
    (same : other.outcome state = body.outcome state) :
    (f <$> other).outcome state = (f <$> body).outcome state := by
  rw [outcome_map, outcome_map, same]

/-- What values are made into tells them apart. -/
theorem Eval.outcome_of_map {body other : Eval W α} {f : α → β} (injective : Function.Injective f)
    {state : State W} (same : (f <$> other).outcome state = (f <$> body).outcome state) :
    other.outcome state = body.outcome state := by
  rw [outcome_map, outcome_map] at same
  obtain ⟨results, states⟩ := Prod.mk.inj same
  refine Prod.ext ?_ states
  cases ended : (body.outcome state).1 with
  | error failure =>
    cases ended' : (other.outcome state).1 with
    | error failure' =>
      rw [ended, ended'] at results
      exact congrArg _ (Except.error.inj results)
    | ok value' =>
      rw [ended, ended'] at results
      cases results
  | ok value =>
    cases ended' : (other.outcome state).1 with
    | error failure' =>
      rw [ended, ended'] at results
      cases results
    | ok value' =>
      rw [ended, ended'] at results
      exact congrArg _ (injective (Except.ok.inj results))

theorem Node.evaluate_of_perform {node other : Node W} {state : State W}
    (same : (other.perform .evaluate).outcome state = (node.perform .evaluate).outcome state) :
    other.evaluate.outcome state = node.evaluate.outcome state :=
  Eval.outcome_of_map (fun _ _ => Answer.value.inj) same

theorem Node.assign_of_perform {node other : Node W} {value : TypedValue} {state : State W}
    (same : (other.perform (.assign value)).outcome state = (node.perform (.assign value)).outcome state) :
    (other.assign value).outcome state = (node.assign value).outcome state :=
  Eval.outcome_of_map (fun _ _ _ => rfl) same

/-! ### Indices and arguments -/

/-- An index that does the same does the same as a key. -/
theorem Indexer.outcome_key_congr {index other : Eval W TypedValue} {state : State W}
    (same : other.outcome (state.push state.root) = index.outcome (state.push state.root)) :
    (Indexer.key other).outcome state = (Indexer.key index).outcome state := by
  rw [Indexer.key, Indexer.key, Eval.outcome_get_bind, Eval.outcome_get_bind]
  exact Eval.outcome_bind_congr (Eval.outcome_inScope_congr same) fun _ _ _ => rfl

section
variable [Host W] {parts : Expr → Node W} {state : State W}

theorem Method.outcome_values_congr {args : List Expr}
    (same : ∀ before arg after values reached, args = before ++ arg :: after →
      (Method.values (before.map Expr.evaluate)).outcome state = (.ok values, reached) →
      (parts arg).evaluate.outcome reached = arg.evaluate.outcome reached) :
    (Method.values (args.map fun arg => (parts arg).evaluate)).outcome state =
      (Method.values (args.map Expr.evaluate)).outcome state := by
  induction args generalizing state with
  | nil => rfl
  | cons arg args ih =>
    refine Eval.outcome_bind_congr (same [] arg args [] state rfl rfl) fun typed reached run => ?_
    refine Eval.outcome_bind_congr (ih fun before later after values final split earlier => ?_) fun _ _ _ => rfl
    -- The later arguments start where this one has left the state, so what they follow has one more in front.
    refine same (arg :: before) later after (typed.value :: values) final (congrArg _ split) ?_
    rw [List.map_cons, Method.values, Eval.outcome_bind_of_ok run, Eval.outcome_bind_of_ok earlier]
    rfl

theorem Method.outcome_arguments_congr {args : List Expr}
    (same : ∀ before arg after values reached, args = before ++ arg :: after →
      (Method.values (before.map Expr.evaluate)).outcome (state.push state.root) = (.ok values, reached) →
      (parts arg).evaluate.outcome reached = arg.evaluate.outcome reached) :
    (Method.arguments (args.map fun arg => (parts arg).evaluate)).outcome state =
      (Method.arguments (args.map Expr.evaluate)).outcome state := by
  rw [Method.arguments, Method.arguments, List.isEmpty_map, List.isEmpty_map]
  split
  · rfl
  · rw [Eval.outcome_get_bind, Eval.outcome_get_bind]
    exact Eval.outcome_inScope_congr (Method.outcome_values_congr same)

/-! ### Chains -/

theorem Chain.outcome_follow_congr {correct : Bool} {rest : List Expr} {value : TypedValue}
    (spans : ∀ e, (parts e).span = e.span)
    (same : ∀ before segment after target reached, rest = before ++ segment :: after →
      (follow correct (before.map Expr.node) value).outcome state = (.ok target, reached) →
      (parts segment).evaluate.outcome (reached.push target) =
        segment.evaluate.outcome (reached.push target)) :
    (follow correct (rest.map parts) value).outcome state =
      (follow correct (rest.map Expr.node) value).outcome state := by
  induction rest generalizing state value with
  | nil => rfl
  | cons segment rest ih =>
    rw [List.map_cons, List.map_cons, follow, follow, spans, Expr.node_span]
    have here := same [] segment rest value state rfl rfl
    refine Eval.outcome_bind_congr
      (Eval.outcome_inScope_congr (Eval.outcome_positioned_congr correct _ here)) fun next reached run => ?_
    refine ih fun before later after target final split earlier => ?_
    refine same (segment :: before) later after target final (congrArg _ split) ?_
    rw [List.map_cons, follow, Expr.node_span, Eval.outcome_bind_of_ok run, earlier]

theorem Chain.outcome_read_congr {correct : Bool} {head : Expr} {middle : List Expr}
    (spans : ∀ e, (parts e).span = e.span)
    (first : (parts head).evaluate.outcome state = head.evaluate.outcome state)
    (same : ∀ before segment after target reached, middle = before ++ segment :: after →
      (read correct head.node (before.map Expr.node)).outcome state = (.ok target, reached) →
      (parts segment).evaluate.outcome (reached.push target) =
        segment.evaluate.outcome (reached.push target)) :
    (read correct (parts head) (middle.map parts)).outcome state =
      (read correct head.node (middle.map Expr.node)).outcome state := by
  rw [read, read, spans, Expr.node_span]
  refine Eval.outcome_bind_congr (Eval.outcome_positioned_congr correct _ first) fun value reached run => ?_
  refine outcome_follow_congr spans fun before segment after target final split earlier => ?_
  refine same before segment after target final split ?_
  rw [read, Expr.node_span, Eval.outcome_bind_of_ok run, earlier]

end

/-! ### Acts -/

/-- What is asked of a segment in front of another one is its value. -/
theorem Operation.reaching_concat (operation : Operation) (rest : List Expr) (last : Expr) :
    operation.reaching (rest ++ [last]) = .evaluate := by
  simp [Operation.reaching]

/-- An act is determined by the acts that it begins: parts that do in these acts what the parts of the
expression do may take their place, whatever they do in other states. -/
theorem Act.determined [Host W] {parts : Expr → Node W} (spans : ∀ e, (parts e).span = e.span) (act : Act W)
    (same : ∀ inner, act.Begins inner →
      ((parts inner.expr).perform inner.operation).outcome inner.state = inner.outcome) :
    ((act.expr.nodeOf parts).perform act.operation).outcome act.state = act.outcome := by
  obtain ⟨e, operation, state⟩ := act
  unfold Act.outcome
  rw [Expr.node_eq_nodeOf]
  cases e with
  | literal value span => rfl
  | property name dotted span => rfl
  | reference name span => rfl
  | indexer index span =>
    simp only [Expr.nodeOf, Node.perform_nested]
    refine Eval.outcome_inNode_congr span fun entered => ?_
    have key := Indexer.outcome_key_congr (Node.evaluate_of_perform (same _ (.index entered)))
    cases operation with
    | evaluate =>
      apply Eval.outcome_map_congr
      rw [Indexer.evaluate, Indexer.evaluate, Eval.outcome_get_bind, Eval.outcome_get_bind]
      exact Eval.outcome_bind_congr key fun _ _ _ => rfl
    | assign value =>
      apply Eval.outcome_map_congr
      simp only [Indexer.assign, Eval.outcome_get_bind]
      exact Eval.outcome_bind_congr key fun _ _ _ => rfl
    | isAssignable =>
      apply Eval.outcome_map_congr
      simp only [Indexer.isAssignable, Eval.outcome_get_bind]
      exact Eval.outcome_bind_congr key fun _ _ _ => rfl
  | method name args dotted span =>
    simp only [Expr.nodeOf, Node.perform_nested]
    refine Eval.outcome_inNode_congr span fun entered => ?_
    cases operation with
    | evaluate =>
      apply Eval.outcome_map_congr
      simp only [Node.valueOnly, Method.evaluate, Eval.outcome_get_bind]
      refine Eval.outcome_bind_congr (Method.outcome_arguments_congr ?_) fun _ _ _ => rfl
      rintro before arg after values reached rfl earlier
      exact Node.evaluate_of_perform (same _ (.argument entered earlier))
    | assign value => rfl
    | isAssignable => rfl
  | assign target value span =>
    simp only [Expr.nodeOf, Node.perform_nested]
    refine Eval.outcome_inNode_congr span fun entered => ?_
    cases operation with
    | evaluate =>
      apply Eval.outcome_map_congr
      have operand := Node.evaluate_of_perform (same _ (.operand entered))
      refine Eval.outcome_bind_congr operand fun result reached run => ?_
      have stored := Node.assign_of_perform (same _ (.target entered run))
      exact Eval.outcome_bind_congr stored fun _ _ _ => rfl
    | assign value => rfl
    | isAssignable => rfl
  | chain head tail span =>
    simp only [Expr.nodeOf, Node.perform_nested]
    refine Eval.outcome_inNode_congr span fun entered => ?_
    rcases List.eq_nil_or_concat tail with rfl | ⟨middle, last, split⟩
    · rw [List.map_nil, List.map_nil, Chain.perform_nil, Chain.perform_nil]
      exact same _ (.head entered)
    · rw [List.concat_eq_append] at split
      subst split
      simp only [List.map_append, List.map_cons, List.map_nil, Chain.perform_concat, Eval.outcome_get_bind,
        spans, Expr.node_span]
      -- The operation reaches the last segment alone; those in front of it are asked for their values.
      have first : (parts head).evaluate.outcome state.enter = head.evaluate.outcome state.enter := by
        have begun := same _ (.head entered)
        rw [Operation.reaching_concat] at begun
        exact Node.evaluate_of_perform begun
      refine Eval.outcome_bind_congr (Chain.outcome_read_congr spans first ?_) fun target reached run => ?_
      · rintro before segment after target reached rfl earlier
        have begun := same ⟨segment, operation.reaching (after ++ [last]), reached.push target⟩ (by
          rw [List.append_assoc, List.cons_append]
          exact .segment entered (Chain.read_ok_iff.mp earlier))
        rw [Operation.reaching_concat] at begun
        exact Node.evaluate_of_perform begun
      · apply Eval.outcome_inScope_congr
        apply Eval.outcome_positioned_congr
        exact same _ (.segment entered (Chain.read_ok_iff.mp run))

/-! ## Acts in a realm -/

section
variable [Host W] {realm : Realm} {act inner : Act W}

/-- An act starts in a state of a realm, and stores a value of the realm if it stores. -/
structure Realm.Admits (realm : Realm) (act : Act W) : Prop where
  holds : realm.Holds act.state
  stored {value : TypedValue} : act.operation = .assign value → realm.values value

/-- What an act begins starts in a state of the realm as well. -/
theorem Realm.Admits.next (writes : realm.Writing) (admits : realm.Admits act) (begins : act.Begins inner) :
    realm.Admits inner := by
  have kept (e : Expr) : realm.KeptBy (e.node : Node W) := Realm.keptBy_node writes e
  obtain ⟨holds, stored⟩ := admits
  cases begins with
  | index entered => exact ⟨holds.enter.push holds.root, nofun⟩
  | @argument _ before _ _ _ _ state reached _ entered earlier =>
    have keeps : ∀ arg ∈ before.map (Expr.evaluate (W := W)), realm.Keeps realm.values arg :=
      List.forall_mem_map.mpr fun e _ => (kept e).evaluate
    have after := (Realm.keeps_values keeps _ (holds.enter.push holds.root)).holds
    rw [earlier] at after
    exact ⟨after, nofun⟩
  | operand entered => exact ⟨holds.enter, nofun⟩
  | @target _ value _ _ _ _ entered operand =>
    obtain ⟨after, result⟩ := (kept value).evaluate _ holds.enter
    change Realm.Holds realm (value.evaluate.outcome _).2 at after
    rw [operand] at after
    refine ⟨after, ?_⟩
    rintro _ ⟨⟩
    exact result (congrArg Prod.fst operand)
  | head entered => exact ⟨holds.enter, fun same => stored (Operation.eq_assign_of_reaching same)⟩
  | segment entered read =>
    exact ⟨Expr.holds_read writes holds.enter read, fun same => stored (Operation.eq_assign_of_reaching same)⟩

theorem Realm.Admits.inCourse (writes : realm.Writing) (admits : realm.Admits act)
    (within : inner.InCourseOf act) : realm.Admits inner := by
  induction within with
  | refl => exact admits
  | tail _ begins ih => exact ih.next writes begins

/-- An act ends in a state of the realm, and returns a value of the realm if it returns one. -/
theorem Realm.Admits.ends (writes : realm.Writing) (admits : realm.Admits act) :
    realm.KeepsAt (fun answer => ∀ value, answer = .value value → realm.values value)
      (act.expr.node.perform act.operation) act.state := by
  obtain ⟨e, operation, state⟩ := act
  obtain ⟨holds, stored⟩ := admits
  have kept := Realm.keptBy_node (W := W) writes e
  cases operation with
  | evaluate =>
    rw [Node.perform, ← bind_pure_comp]
    refine Realm.keepsAt_bind (kept.evaluate state holds) fun result reached inside holds => ?_
    refine Realm.keepsAt_pure holds ?_
    rintro _ ⟨⟩
    exact inside
  | assign value =>
    rw [Node.perform, ← bind_pure_comp]
    refine Realm.keepsAt_bind (kept.assign (stored rfl) state holds) fun _ reached _ holds => ?_
    refine Realm.keepsAt_pure holds ?_
    rintro _ ⟨⟩
  | isAssignable =>
    rw [Node.perform, ← bind_pure_comp]
    refine Realm.keepsAt_bind (kept.isAssignable state holds) fun _ reached _ holds => ?_
    refine Realm.keepsAt_pure holds ?_
    rintro _ ⟨⟩

end

end DotChain
