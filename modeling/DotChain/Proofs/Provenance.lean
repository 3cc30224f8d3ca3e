import DotChain.Proofs.Locations

/-!
# Where containers come from

Expressions make no lists and no objects. Main statement: `containers_known`, where no objects of an
application are found, neither in a state nor in the values that are given to store there, the containers that
can be found after any run could be found before or came in with a value to store; an assignment stores the
handle itself; and what is written through one way to a container is found through any other.
-/

namespace DotChain

variable {W : Type}

/-- There are no objects of an application in a state. -/
def State.Hostless (state : State W) : Prop := ∀ id, ¬state.Reaches (.host id)

/-- The handle of every container in a state was given out. -/
def State.Backed (state : State W) : Prop :=
  ∀ container : Container, state.Reaches container.value → state.heap.holds container = true

/-- A value is found in a state, or comes in with one of the values that operations on it are given to
store. -/
def State.Brings (state : State W) (session : List Request) (value : Value) : Prop :=
  state.Reaches value ∨
    ∃ request ∈ session, ∃ given, request.given? = some given ∧ state.heap.Reaches given.value value

/-- Where nothing is found but scalars and containers that were given out, there are no objects of an
application, and the handle of every container was given out. -/
theorem hostless_and_backed {heap : Heap} {found : Value → Prop} (all : ∀ value, found value →
    value.IsScalar ∨ ∃ container : Container, value = container.value ∧ heap.holds container = true) :
    (∀ id, ¬found (.host id)) ∧
      ∀ container : Container, found container.value → heap.holds container = true := by
  refine ⟨fun id here => ?_, fun container here => ?_⟩
  · obtain scalar | ⟨container, same, _⟩ := all _ here
    · exact scalar
    · cases container <;> cases same
  · obtain scalar | ⟨other, same, held⟩ := all _ here
    · exact absurd scalar container.not_scalar
    · rwa [Container.eq_of_value_eq same]

/-! ## Realms of values that are known -/

namespace Realm

/-- The values of a certain kind, and the heaps that give out the same handles as a given one and in which
values of the kind contain others of the kind only. -/
def within (start : Heap) (inside : Value → Prop) : Realm where
  heaps heap := (∀ source target, inside source → heap.Contains source target → inside target) ∧
    ∀ container, heap.holds container = start.holds container
  values typed := inside typed.value

variable {start : Heap} {inside : Value → Prop}

theorem within_writing (scalar : ∀ value : Value, value.IsScalar → inside value)
    (hostless : ∀ id, ¬inside (.host id)) : (within start inside).Writing where
  scalar here _ := scalar _ here
  hostless here id same := hostless id (same ▸ here)
  item heaps here same member := heaps.1 _ _ here (same ▸ .item member)
  field {heap target id name field} heaps here same found := by
    change inside (heap.typedField field).value
    rw [Heap.typedField_value]
    exact heaps.1 _ _ here (same ▸ .field found)
  replace heaps _ _ stored puts := by
    refine ⟨fun source target here contains => ?_, fun container => (puts.holds container).trans (heaps.2 _)⟩
    obtain old | ⟨_, rfl⟩ := puts.contains contains
    · exact heaps.1 _ _ here old
    · exact stored
  write heaps _ _ stored puts := by
    refine ⟨fun source target here contains => ?_, fun container => (puts.holds container).trans (heaps.2 _)⟩
    obtain old | ⟨_, rfl⟩ := puts.contains contains
    · exact heaps.1 _ _ here old
    · exact stored

/-- The values of a certain kind, and one heap. -/
def unchanged (heap : Heap) (inside : Value → Prop) : Realm where
  heaps other := other = heap
  values typed := inside typed.value

theorem unchanged_reading {heap : Heap} (scalar : ∀ value : Value, value.IsScalar → inside value)
    (hostless : ∀ id, ¬inside (.host id))
    (closed : ∀ source target, inside source → heap.Contains source target → inside target) :
    (unchanged heap inside).Reading where
  scalar here _ := scalar _ here
  hostless here id same := hostless id (same ▸ here)
  item {other target id item} same here is member := by
    obtain rfl : other = heap := same
    exact closed _ _ here (is ▸ .item member)
  field {other target id name field} same here is found := by
    obtain rfl : other = heap := same
    change inside (other.typedField field).value
    rw [Heap.typedField_value]
    exact closed _ _ here (is ▸ .field found)

end Realm

namespace State

variable {state : State W} {session : List Request}

/-- What a value that is known contains is known. -/
theorem Brings.next {source target : Value} (brings : state.Brings session source)
    (contains : state.heap.Contains source target) : state.Brings session target := by
  obtain ⟨entry, there, reaches⟩ | ⟨request, member, given, there, reaches⟩ := brings
  · exact .inl ⟨entry, there, reaches.tail contains⟩
  · exact .inr ⟨request, member, given, there, reaches.tail contains⟩

/-- The scalars and what is known to a state and to the operations that are run on it. -/
def Known (state : State W) (session : List Request) (value : Value) : Prop :=
  value.IsScalar ∨ state.Brings session value

theorem Known.next {source target : Value} (known : state.Known session source)
    (contains : state.heap.Contains source target) : state.Known session target := by
  obtain scalar | brings := known
  · exact absurd contains (Heap.not_contains_scalar scalar)
  · exact .inr (brings.next contains)

theorem not_known_host (hostless : ∀ id, ¬state.Brings session (.host id)) (id : HostId) :
    ¬state.Known session (.host id) := by
  rintro (scalar | brings)
  · exact scalar
  · exact hostless id brings

theorem known_entry (session : List Request) {value : TypedValue} (entry : state.Entry value) :
    state.Known session value.value :=
  .inr (.inl ⟨value, entry, .refl⟩)

/-- The realm of what is known. -/
def realm (state : State W) (session : List Request) : Realm :=
  .within state.heap (state.Known session)

theorem realm_writing (hostless : ∀ id, ¬state.Brings session (.host id)) :
    (state.realm session).Writing :=
  Realm.within_writing (fun _ scalar => .inl scalar) (not_known_host hostless)

theorem realm_holds (state : State W) (session : List Request) : (state.realm session).Holds state where
  heap := ⟨fun _ _ known contains => known.next contains, fun _ => rfl⟩
  root := known_entry session .root
  binding bound := known_entry session (.binding bound)
  context active := known_entry session (.context active)

end State

/-! ## Sessions -/

section
variable [Host W] {state : State W} {session : List Request}

/-- A session does not leave the realm of what is known. -/
private theorem session_realm (hostless : ∀ id, ¬state.Brings session (.host id)) :
    (state.realm session).Holds (state.afterSession session) ∧
      ∀ result ∈ state.returned session, state.Known session result.value := by
  have given : ∀ request ∈ session, ∀ value, request.given? = some value →
      (state.realm session).values value :=
    fun request member given there => .inr (.inr ⟨request, member, given, there, .refl⟩)
  exact Realm.session (State.realm_writing hostless) (state.realm_holds session) given

/-- What is found after a session was known before. -/
private theorem known_afterwards (hostless : ∀ id, ¬state.Brings session (.host id)) {value : Value}
    (found : (state.afterSession session).Reaches value ∨
      ∃ result ∈ state.returned session, (state.afterSession session).heap.Reaches result.value value) :
    state.Known session value := by
  obtain ⟨holds, returned⟩ := session_realm hostless
  obtain ⟨entry, there, reaches⟩ | ⟨result, member, reaches⟩ := found
  · exact reaches.within holds.heap.1 (holds.entry there)
  · exact reaches.within holds.heap.1 (returned result member)

private theorem hostless_afterwards (hostless : ∀ id, ¬state.Brings session (.host id)) :
    (state.afterSession session).Hostless :=
  fun id reaches => State.not_known_host hostless id (known_afterwards hostless (.inl reaches))

private theorem backed_afterwards (hostless : ∀ id, ¬state.Brings session (.host id))
    (backed : ∀ container : Container, state.Brings session container.value →
      state.heap.holds container = true) : (state.afterSession session).Backed := by
  intro container reaches
  obtain scalar | brings := known_afterwards hostless (.inl reaches)
  · exact absurd scalar container.not_scalar
  · exact ((session_realm hostless).1.heap.2 container).trans (backed container brings)

end

/-! ## What is stored and seen -/

section
variable [Host W] {state : State W}

omit [Host W] in
/-- Without a session, what is brought is what is found. -/
private theorem brings_nil {value : Value} : state.Brings [] value ↔ state.Reaches value := by
  simp [State.Brings]

/-- In a state without objects of an application, and wherever an evaluation leads from there, storing
succeeds by putting the value at a location that was given out. -/
theorem Expr.locates_given {e : Expr} {value : TypedValue} {reached final : State W}
    (hostless : state.Hostless) (backed : state.Backed) (holds : (state.realm []).Holds reached)
    (stored : (e.store value).outcome reached = (.ok (), final)) :
    ∃ location memory, e.Locates reached location memory ∧
      location.put? memory value = some final.memory ∧ location.Given memory := by
  have writes := State.realm_writing fun id brings => hostless id (brings_nil.mp brings)
  obtain ⟨location, memory, located, put⟩ := e.locates_of_store writes holds stored
  obtain ⟨⟨_, handles⟩, context⟩ := located.inRealm writes holds
  refine ⟨location, memory, located, put, ?_⟩
  unfold Location.Given
  split
  · next id step =>
    obtain ⟨typed, known, same⟩ := context _ _ rfl
    change state.Known [] typed.value at known
    rw [same] at known
    obtain scalar | brings := known
    · exact scalar.elim
    · exact (handles _).trans (backed (.object id) (brings_nil.mp brings))
  · trivial

/-- An assignment stores the very value that its operand has. -/
private theorem assignment_puts (hostless : state.Hostless) (backed : state.Backed) {target value : Expr}
    {span : Span} {result : TypedValue} {final : State W}
    (run : (Expr.assign target value span).evaluate.outcome state = (.ok result, final)) :
    ∃ reached location memory, value.evaluate.outcome state.enter = (.ok result, reached) ∧
      target.Locates reached location memory ∧ location.put? memory result = some final.memory ∧
      ∃ stored, location.read? final.memory = some stored ∧ stored.value = result.value := by
  obtain ⟨_, inner, inside, rfl⟩ := Eval.inNode_ok_iff.mp run
  obtain ⟨operand, reached, evaluated, rest⟩ := Eval.bind_ok_iff.mp inside
  obtain ⟨_, after, stored, rest⟩ := Eval.bind_ok_iff.mp rest
  obtain ⟨rfl, rfl⟩ := Eval.pure_ok_iff.mp rest
  have writes := State.realm_writing fun id brings => hostless id (brings_nil.mp brings)
  obtain ⟨holds, -⟩ := (Realm.keptBy_node writes value).evaluate state.enter (state.realm_holds []).enter
  rw [evaluated] at holds
  obtain ⟨location, memory, located, put, given⟩ := Expr.locates_given hostless backed holds stored
  exact ⟨reached, location, memory, evaluated, located, put, _, Location.read?_put? put given, rfl⟩

/-- Where there are no objects of an application, evaluating an expression without assignments changes
nothing in the heap. -/
private theorem heap_unchanged (hostless : state.Hostless) {e : Expr} (free : e.assigns = false)
    {result : Except Failure TypedValue} {final : State W}
    (run : e.evaluate.outcome state.enter = (result, final)) : final.heap = state.heap := by
  have reads : (Realm.unchanged state.heap (state.Known [])).Reading := by
    refine Realm.unchanged_reading (fun _ scalar => .inl scalar) ?_
      fun _ _ known contains => known.next contains
    exact State.not_known_host fun id brings => hostless id (brings_nil.mp brings)
  obtain ⟨_, root, binding, context⟩ := state.realm_holds []
  have holds : (Realm.unchanged state.heap (state.Known [])).Holds state := ⟨rfl, root, binding, context⟩
  have kept := ((Realm.readBy_node reads e free).evaluate state.enter holds.enter).holds
  change Realm.Holds _ (e.evaluate.outcome state.enter).2 at kept
  rw [run] at kept
  exact kept.heap

/-- What a step stores in a container that one expression evaluates to is found by the step in the value of
another expression that evaluates to the same container afterwards. -/
private theorem write_seen (hostless : state.Hostless) (backed : state.Backed) {source other step : Expr}
    (isStep : step.IsStep) (free : other.assigns = false) {container : Container}
    {written first view : TypedValue} {reached between final : State W} {span place : Span}
    (evaluated : source.evaluate.outcome state.enter = (.ok first, reached))
    (here : first.value = container.value)
    (stored : ((Expr.chain source [step] span).store written).outcome state = (.ok (), final))
    (hostless' : final.Hostless)
    (viewed : other.evaluate.outcome final.enter = (.ok view, between))
    (there : view.value = container.value) :
    ∃ result last, (Expr.chain other [step] place).evaluate.outcome final = (.ok result, last) ∧
      result.value = written.value := by
  obtain ⟨location, memory, located, put, given⟩ :=
    Expr.locates_given hostless backed (state.realm_holds []) stored
  cases located with
  | last room ending read inside =>
    obtain rfl := Option.some.inj ending
    obtain ⟨same, rfl⟩ := Prod.mk.inj (evaluated.symm.trans (Chain.read_nil_ok_iff.mp read))
    obtain rfl := Except.ok.inj same
    have alike : final.AsDeep state := .of_balanced (Expr.balanced_store stored)
    have alike' : between.AsDeep reached :=
      alike.enter.after (Expr.balanced_evaluate evaluated) (Expr.balanced_evaluate viewed)
    -- The step leads below the same container as before, and the heap is the one after the write.
    obtain ⟨action, rfl, -, leads⟩ := inside.again isStep (alike'.push first view)
    have heap : between.heap = final.heap := heap_unchanged hostless' free viewed
    have found : (Location.below view.value action).read? between.memory =
        some ⟨written.value, (Location.below first.value action).keptType memory written⟩ := by
      rw [there, ← here]
      exact (congrArg (action.read? · first.value) heap).trans (Location.read?_put? put given)
    have located : (Expr.chain other [step] place).Locates final (.below view.value action) between.memory :=
      .last (alike.exhausted?.trans room) rfl (Chain.read_nil_ok_iff.mpr viewed) leads
    obtain ⟨last, run, -⟩ := Expr.evaluate_of_locates located found
    exact ⟨_, last, run, rfl⟩

end

/-! ## Containers -/

/-- Operations are run one after the other on a state in which no objects of an application are found, nor in
any of the values that the operations are given to store: what such an object hands out could be anything. Then
a container that is found afterwards, or in a value that an operation has returned, was found before or came in
with a value to store. At any such point, an assignment puts the very value of its operand, and no copy, at the
location that its target leads to. And what is stored in a container through one expression is found through
any other that evaluates to the same container. -/
theorem containers_known [Host W] (state : State W) (session : List Request)
    (hostless : ∀ id, ¬state.Brings session (.host id))
    (backed : ∀ container : Container, state.Brings session container.value →
      state.heap.holds container = true) :
    (∀ container : Container,
      (state.afterSession session).Reaches container.value ∨
        (∃ result ∈ state.returned session,
          (state.afterSession session).heap.Reaches result.value container.value) →
      state.Brings session container.value) ∧
    (∀ (target value : Expr) (span : Span) (result : TypedValue) (final : State W),
      (Expr.assign target value span).evaluate.outcome (state.afterSession session) = (.ok result, final) →
      ∃ reached location memory,
        value.evaluate.outcome (state.afterSession session).enter = (.ok result, reached) ∧
        target.Locates reached location memory ∧ location.put? memory result = some final.memory ∧
        ∃ stored, location.read? final.memory = some stored ∧ stored.value = result.value) ∧
    (∀ (source other step : Expr) (span place : Span) (container : Container)
      (first written view : TypedValue) (reached final between : State W),
      step.IsStep → other.assigns = false →
      source.evaluate.outcome (state.afterSession session).enter = (.ok first, reached) →
      first.value = container.value →
      ((Expr.chain source [step] span).store written).outcome (state.afterSession session) =
        (.ok (), final) → final.Hostless →
      other.evaluate.outcome final.enter = (.ok view, between) → view.value = container.value →
      ∃ result last, (Expr.chain other [step] place).evaluate.outcome final = (.ok result, last) ∧
        result.value = written.value) := by
  have hostless' := hostless_afterwards hostless
  have backed' := backed_afterwards hostless backed
  refine ⟨fun container found => ?_, ?_, ?_⟩
  · obtain scalar | brings := known_afterwards hostless found
    · exact absurd scalar container.not_scalar
    · exact brings
  · intro target value span result final run
    exact assignment_puts hostless' backed' run
  · intro source other step span place container first written view reached final between isStep free
      evaluated here stored none viewed there
    exact write_seen hostless' backed' isStep free evaluated here stored none viewed there

/-- A root with a list `a` and no `b`. -/
private def oneList : State Unit :=
  .initial ⟨.object ⟨0⟩, .object⟩ .standard
    ⟨⟨#[[.int 1, .int 2]], #[⟨none, .ofList [("a", .plain (.list ⟨0⟩))]⟩], #[]⟩, ()⟩

/-- `b = a`. -/
private def sharing : Request :=
  .evaluate (.assign (.property "b" false ⟨0, 1⟩) (.property "a" false ⟨4, 5⟩) ⟨0, 5⟩)

/-- `a[0]`, or the same of `b`. -/
private def firstItem (name : String) : Expr :=
  .chain (.property name false ⟨0, 1⟩) [.indexer (.literal (.int 0) ⟨2, 3⟩) ⟨1, 4⟩] ⟨0, 4⟩

/-- `b[0]`, to which 7 is to be stored. -/
private def writing : Request := .store (firstItem "b") ⟨.int 7, .int⟩

/-- Nothing is inside anything but the list and scalars. -/
private theorem contained_oneList {source value : Value} (contains : oneList.heap.Contains source value) :
    value.IsScalar ∨ value = .list ⟨0⟩ := by
  cases contains with
  | @item id _ member =>
    obtain ⟨_ | index⟩ := id
    · have items : oneList.heap.items ⟨0⟩ = [.int 1, .int 2] := rfl
      rw [items] at member
      simp only [List.mem_cons, List.not_mem_nil, or_false] at member
      obtain rfl | rfl := member
      · exact .inl trivial
      · exact .inl trivial
    · cases member
  | @field id name field found =>
    obtain ⟨_ | index⟩ := id
    · have only : oneList.heap.field? ⟨0⟩ name = if "a" = name then some (.plain (.list ⟨0⟩)) else none := by
        simp [oneList, State.initial, State.heap, Heap.field?, Heap.object, Table.ofList, Table.get?_insert]
      rw [only] at found
      split at found
      · obtain rfl := Option.some.inj found
        exact .inr rfl
      · cases found
    · cases found

private theorem brings_oneList {value : Value} (brings : oneList.Brings [sharing, writing] value) :
    value.IsScalar ∨ ∃ container : Container, value = container.value ∧
      oneList.heap.holds container = true := by
  have below {source : Value} (reaches : oneList.heap.Reaches source value)
      (start : source.IsScalar ∨ source = .object ⟨0⟩) :
      value.IsScalar ∨ ∃ container : Container, value = container.value ∧
        oneList.heap.holds container = true := by
    obtain rfl | ⟨_, _, contains⟩ := Relation.ReflTransGen.cases_tail reaches
    · exact start.imp_right fun same => ⟨.object ⟨0⟩, same, rfl⟩
    · exact (contained_oneList contains).imp_right fun same => ⟨.list ⟨0⟩, same, rfl⟩
  obtain ⟨entry, there, reaches⟩ | ⟨request, member, given, there, reaches⟩ := brings
  · cases there with
    | root => exact below reaches (.inr rfl)
    | binding bound => cases bound
    | context active => cases active
  · simp only [List.mem_cons, List.not_mem_nil, or_false] at member
    obtain rfl | rfl := member
    · cases there
    · obtain rfl := Option.some.inj there
      exact below reaches (.inl trivial)

/-- The list that is found under both names was there before, and what is stored in `b[0]` is seen in
`a[0]`. -/
theorem containers_known_sharing :
    (∀ id, ¬oneList.Brings [sharing] (.host id)) ∧
    (∀ container : Container, oneList.Brings [sharing] container.value →
      oneList.heap.holds container = true) ∧
    (oneList.afterSession [sharing]).heap.field? ⟨0⟩ "b" = some (.plain (.list ⟨0⟩)) ∧
    oneList.Brings [sharing] (.list ⟨0⟩) ∧
    ∃ result last, (firstItem "a").evaluate.outcome (oneList.afterSession [sharing, writing]) =
      (.ok result, last) ∧ result.value = .int 7 := by
  have more {value : Value} (brings : oneList.Brings [sharing] value) :
      oneList.Brings [sharing, writing] value := by
    obtain found | ⟨request, member, given⟩ := brings
    · exact .inl found
    · exact .inr ⟨request, List.mem_cons.mpr (.inl (List.mem_singleton.mp member)), given⟩
  obtain ⟨hostless, -⟩ := hostless_and_backed (fun _ => brings_oneList)
  obtain ⟨hostless', backed⟩ := hostless_and_backed (fun _ brings => brings_oneList (more brings))
  have found : (oneList.afterSession [sharing]).heap.field? ⟨0⟩ "b" = some (.plain (.list ⟨0⟩)) := rfl
  obtain ⟨known, -, seen⟩ := containers_known oneList [sharing] hostless' backed
  refine ⟨hostless', backed, found, ?_, ?_⟩
  · exact known (.list ⟨0⟩) (.inl ⟨_, .root, .single (.field found)⟩)
  · exact seen (.property "b" false ⟨0, 1⟩) (.property "a" false ⟨0, 1⟩)
      (.indexer (.literal (.int 0) ⟨2, 3⟩) ⟨1, 4⟩) ⟨0, 4⟩ ⟨0, 4⟩ (.list ⟨0⟩) _ ⟨.int 7, .int⟩ _ _ _ _
      trivial rfl rfl rfl rfl (hostless_afterwards hostless) rfl rfl

end DotChain
