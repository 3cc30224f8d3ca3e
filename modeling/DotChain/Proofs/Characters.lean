import DotChain.Proofs.Spellings

/-!
# Characters of texts

A text is indexed and cut by characters, with positions that are 64-bit integers. Main statement:
`characters_consistent`, an index and the two forms of `substring` are defined on the positions of the text and
on nothing else, agree with one another, and refuse every other position as out of bounds. That positions are
added without overflow is where the length has to be an integer itself.
-/

namespace DotChain

/-! ## Slices -/

namespace Method

variable {characters part : List Char} {first last : Int64}

/-- A slice is taken between positions in ascending order, of which the last may be the length. -/
theorem slice_ok_iff : slice characters first last = .ok part ↔
    (0 ≤ first.toInt ∧ first.toInt ≤ last.toInt ∧ last.toInt ≤ characters.length) ∧
      (characters.take last.toInt.toNat).drop first.toInt.toNat = part := by
  unfold slice
  split
  case h_1 outside | h_2 outside =>
    rw [slot?_eq_none_iff] at outside
    constructor
    · rintro ⟨⟩
    · rintro ⟨bounds, -⟩
      omega
  case h_3 start stop ofFirst ofLast =>
    obtain ⟨ofFirst, -⟩ := slot?_eq_some_iff.mp ofFirst
    obtain ⟨ofLast, inside⟩ := slot?_eq_some_iff.mp ofLast
    rw [ofFirst, ofLast, Int.toNat_natCast, Int.toNat_natCast]
    split
    · next reversed =>
      constructor
      · rintro ⟨⟩
      · rintro ⟨bounds, -⟩
        omega
    · next ordered =>
      have bounds : 0 ≤ (start : Int) ∧ (start : Int) ≤ stop ∧ (stop : Int) ≤ characters.length := by omega
      simp only [bounds, and_self, true_and, Except.ok.injEq]

/-- A slice that is refused has a position out of bounds. -/
theorem slice_error {fault : Fault} (refused : slice characters first last = .error fault) :
    ∃ position length, fault = .indexOutOfBounds position length := by
  unfold slice at refused
  split at refused
  · exact ⟨_, _, (Except.error.inj refused).symm⟩
  · exact ⟨_, _, (Except.error.inj refused).symm⟩
  · split at refused
    · exact ⟨_, _, (Except.error.inj refused).symm⟩
    · cases refused

end Method

/-! ## Values on a text -/

section
variable {W : Type}

theorem Method.outcome_values_pure (state : State W) (values : List TypedValue) :
    (Method.values (values.map pure)).outcome state = (.ok (values.map (·.value)), state) := by
  induction values with
  | nil => rfl
  | cons value values ih =>
    rw [List.map_cons, Method.values, Eval.outcome_bind_of_ok (Eval.outcome_pure value state),
      Eval.outcome_bind_of_ok ih]
    rfl

theorem Method.outcome_arguments_pure (state : State W) (values : List TypedValue) :
    ∃ reached, (Method.arguments (values.map pure)).outcome state = (.ok (values.map (·.value)), reached) ∧
      reached.heap = state.heap := by
  cases values with
  | nil => exact ⟨state, rfl, rfl⟩
  | cons value values =>
    have read := Method.outcome_values_pure (state.push state.root) (value :: values)
    exact ⟨_, Method.outcome_arguments_cons read, rfl⟩

variable [Host W] {state reached : State W} {text : String} (inner span : Span)

/-- A text with its type. -/
def TypedValue.ofCharacters (characters : List Char) : TypedValue := ⟨.text (String.ofList characters), .text⟩

theorem Indexer.result_text {index : Eval W TypedValue} {i : Int64} (context : state.current.value = .text text)
    (keyed : (Indexer.key index).outcome state = (.ok (.int i), reached)) :
    ((Indexer.evaluate index span).outcome state).1 =
      match (slot? i text.toList.length).bind (text.toList[·]?) with
      | some character => .ok (.ofCharacters [character])
      | none => .error (.fault (.indexOutOfBounds i text.toList.length) span) := by
  rw [Indexer.evaluate, Eval.outcome_get_bind]
  simp only [context, Eval.outcome_bind_of_ok keyed, Eval.outcome_get_bind, Eval.outcome_orFault]
  cases (slot? i text.toList.length).bind (text.toList[·]?) <;> rfl

theorem Method.result_text {args : List (Eval W TypedValue)} {values : List Value}
    (context : state.current.value = .text text)
    (given : (Method.arguments args).outcome state = (.ok values, reached)) (method : String) :
    ((Method.evaluate method args span).outcome state).1 =
      match Method.ofText reached.heap text method values with
      | .ok result => .ok (reached.heap.typed result)
      | .error fault => .error (.fault fault span) := by
  rw [Method.evaluate, Eval.outcome_get_bind]
  simp only [context, Eval.outcome_bind_of_ok given, Eval.outcome_get_bind, Method.builtIn]
  cases Method.ofText reached.heap text method values <;> rfl

/-- What an integer as an index results in. -/
def State.characterAt (state : State W) (span : Span) (i : Int64) : Except Failure TypedValue :=
  ((Indexer.evaluate (pure (Literal.int i).typed) span).outcome state).1

/-- What `substring` with integers results in. -/
def State.substring (state : State W) (span : Span) (positions : List Int64) : Except Failure TypedValue :=
  ((Method.evaluate "substring" ((positions.map fun i => (Literal.int i).typed).map pure) span).outcome state).1

theorem characterAt_eq (context : state.current.value = .text text) (i : Int64) :
    state.characterAt span i =
      match (slot? i text.toList.length).bind (text.toList[·]?) with
      | some character => .ok (.ofCharacters [character])
      | none => .error (.fault (.indexOutOfBounds i text.toList.length) span) :=
  Indexer.result_text span context rfl

theorem substring_eq (context : state.current.value = .text text) (positions : List Int64) :
    state.substring span positions =
      match Method.substring state.heap text (positions.map .int) with
      | .ok part => .ok (state.heap.typed part)
      | .error fault => .error (.fault fault span) := by
  obtain ⟨reached, given, same⟩ :=
    Method.outcome_arguments_pure state (positions.map fun i => (Literal.int i).typed)
  have values : (positions.map fun i => (Literal.int i).typed).map (·.value) = positions.map .int := by
    simp [Literal.typed]
  rw [values] at given
  rw [← same]
  exact Method.result_text span context given "substring"

/-! ### Literals as positions -/

/-- A literal as an index has the result of its integer, where both nodes may be entered. -/
theorem result_indexer (context : state.current.value = .text text) (room : state.enter.exhausted? = none)
    (i : Int64) :
    ((Expr.indexer (.literal (.int i) inner) span).evaluate.outcome state).1 = state.characterAt span i := by
  obtain ⟨counters, keyed⟩ := Indexer.outcome_key_literal room (.int i) inner
  have context' : state.enter.current.value = .text text := context
  rw [characterAt_eq span context]
  exact (Eval.result_inNode (State.exhausted?_of_enter room) span _).trans
    (Indexer.result_text span context' keyed)

/-- Literals as arguments have the result of their integers, where all nodes may be entered. -/
theorem result_substring (context : state.current.value = .text text) (room : state.enter.exhausted? = none)
    (dotted : Bool) (positions : List Int64) :
    ((Expr.method "substring" (positions.map fun i => .literal (.int i) inner) dotted span).evaluate.outcome
      state).1 = state.substring span positions := by
  obtain ⟨counters, given⟩ := Method.outcome_arguments_literals room (positions.map .int) inner
  have context' : state.enter.current.value = .text text := context
  have result := Method.result_text span context' given "substring"
  have values : (positions.map Literal.int).map (·.typed.value) = positions.map .int := by
    simp [Literal.typed]
  have args : ((Expr.nodes (positions.map fun i => .literal (.int i) inner)).map (·.evaluate) :
      List (Eval W TypedValue)) =
        (positions.map Literal.int).map fun value => (Expr.literal value inner).evaluate := by
    simp [Expr.evaluate]
  rw [values, ← args] at result
  rw [substring_eq span context]
  exact (Eval.result_inNode (State.exhausted?_of_enter room) span _).trans result

/-! ### Parts -/

theorem substring_between (context : state.current.value = .text text)
    (first last : Int64) :
    state.substring span [first, last] =
      match Method.slice text.toList first last with
      | .ok part => .ok (.ofCharacters part)
      | .error fault => .error (.fault fault span) := by
  rw [substring_eq span context]
  change (match (do
      return .text (String.ofList (← Method.slice text.toList first last)) : Except Fault Value) with
    | .ok part => _
    | .error fault => _) = _
  cases Method.slice text.toList first last <;> rfl

/-- Without an end, a part goes up to the end of the text. -/
theorem substring_from (context : state.current.value = .text text) {whole : Int64}
    (length : whole.toInt = text.toList.length) (first : Int64) :
    state.substring span [first] = state.substring span [first, whole] := by
  rw [substring_eq span context, substring_eq span context]
  have last : lengthInt text.toList.length = whole := lengthInt_eq length
  change (match (do return .text (String.ofList
      (← Method.slice text.toList first (lengthInt text.toList.length))) : Except Fault Value) with
    | .ok part => _
    | .error fault => _) = _
  rw [last]
  rfl

theorem characterAt_ok_iff (context : state.current.value = .text text) {i : Int64}
    {value : TypedValue} :
    state.characterAt span i = .ok value ↔
      ∃ position character, i.toInt = (position : Nat) ∧ text.toList[position]? = some character ∧
        .ofCharacters [character] = value := by
  rw [characterAt_eq span context]
  constructor
  · intro succeeds
    split at succeeds
    · next character found =>
      obtain ⟨position, slot, found⟩ := Option.bind_eq_some_iff.mp found
      exact ⟨position, character, (slot?_eq_some_iff.mp slot).1, found, Except.ok.inj succeeds⟩
    · cases succeeds
  · rintro ⟨position, character, integer, found, rfl⟩
    have slot : slot? i text.toList.length = some position :=
      slot?_eq_some_iff.mpr ⟨integer, (List.getElem?_eq_some_iff.mp found).1⟩
    rw [slot, Option.bind_some, found]

theorem substring_ok_iff (context : state.current.value = .text text) {first last : Int64}
    {value : TypedValue} :
    state.substring span [first, last] = .ok value ↔
      (0 ≤ first.toInt ∧ first.toInt ≤ last.toInt ∧ last.toInt ≤ text.toList.length) ∧
        .ofCharacters ((text.toList.take last.toInt.toNat).drop first.toInt.toNat) = value := by
  rw [substring_between span context]
  constructor
  · intro succeeds
    split at succeeds
    · next part sliced =>
      obtain ⟨bounds, rfl⟩ := Method.slice_ok_iff.mp sliced
      exact ⟨bounds, Except.ok.inj succeeds⟩
    · cases succeeds
  · rintro ⟨bounds, rfl⟩
    rw [Method.slice_ok_iff.mpr ⟨bounds, rfl⟩]

theorem ofLength_of_short (short : text.toList.length < Int64.maxValue.toInt.toNat) :
    Value.ofLength text.length = .int (.ofNat text.toList.length) := by
  have greatest : Int64.maxValue.toInt = 9223372036854775807 := rfl
  rw [String.length_toList] at *
  exact congrArg Value.int (lengthInt_eq (Int64.toInt_ofNat_of_lt (by omega)))

theorem length_property (context : state.current.value = .text text)
    (short : text.toList.length < Int64.maxValue.toInt.toNat) :
    ((Property.evaluate "length" span).outcome state).1 = .ok ⟨.int (.ofNat text.toList.length), .int⟩ := by
  rw [Property.evaluate, Eval.outcome_get_bind, context]
  exact congrArg (fun value => Except.ok (state.heap.typed value)) (ofLength_of_short short)

theorem length_method (context : state.current.value = .text text)
    (short : text.toList.length < Int64.maxValue.toInt.toNat) :
    ((Method.evaluate "length" [] span).outcome state).1 = .ok ⟨.int (.ofNat text.toList.length), .int⟩ := by
  have given : (Method.arguments []).outcome state = (.ok [], state) := rfl
  refine (Method.result_text span context given "length").trans ?_
  exact congrArg (fun value => Except.ok (state.heap.typed value)) (ofLength_of_short short)

/-- Positions that are added do not overflow before the greatest integer. -/
theorem toInt_add_ofNat {position : Int64} (further : Nat) (start : 0 ≤ position.toInt)
    (inside : position.toInt + further ≤ Int64.maxValue.toInt) :
    (position + Int64.ofNat further).toInt = position.toInt + further := by
  have greatest : Int64.maxValue.toInt = 9223372036854775807 := rfl
  rw [Int64.toInt_add, Int64.toInt_ofNat_of_lt (by omega), Int.bmod_eq_of_le (by omega) (by omega)]

/-- A character is the part that has it alone. -/
theorem part_of_characterAt (context : state.current.value = .text text) {n i : Int64}
    (length : n.toInt = text.toList.length) {value : TypedValue}
    (found : state.characterAt span i = .ok value) :
    state.substring span [i, i + 1] = .ok value ∧
      ∃ character, text.toList[i.toInt.toNat]? = some character ∧ value = .ofCharacters [character] := by
  obtain ⟨position, character, integer, here, rfl⟩ := (characterAt_ok_iff span context).mp found
  obtain ⟨inside, same⟩ := List.getElem?_eq_some_iff.mp here
  -- The next position is at most the length, which is an integer.
  have next : (i + 1).toInt = position + 1 := by
    rw [← integer]
    exact toInt_add_ofNat 1 (by omega) (by have := n.toInt_le; omega)
  have alone : (text.toList.take (position + 1)).drop position = [character] := by
    rw [List.drop_take, List.drop_eq_getElem_cons inside, same, Nat.add_sub_cancel_left]
    rfl
  constructor
  · rw [substring_ok_iff span context, next, integer]
    exact ⟨by omega, congrArg TypedValue.ofCharacters alone⟩
  · exact ⟨character, by rw [integer]; exact here, rfl⟩

/-- The characters of a part are those from its start on. -/
theorem characterAt_of_part (context : state.current.value = .text text)
    {b e : Int64} {value : TypedValue} (taken : state.substring span [b, e] = .ok value) :
    ∃ part, value = .ofCharacters part ∧ part.length = e.toInt - b.toInt ∧
      ∀ j character, part[j]? = some character →
        state.characterAt span (b + .ofNat j) = .ok (.ofCharacters [character]) := by
  obtain ⟨⟨start, ordered, inside⟩, rfl⟩ := (substring_ok_iff span context).mp taken
  refine ⟨_, rfl, ?_, fun j character there => ?_⟩
  · rw [List.length_drop, List.length_take]
    omega
  · rw [List.getElem?_drop, List.getElem?_take, Option.ite_none_right_eq_some] at there
    obtain ⟨before, there⟩ := there
    refine (characterAt_ok_iff span context).mpr ⟨_, character, ?_, there, rfl⟩
    rw [toInt_add_ofNat j start (by have := e.toInt_le; omega)]
    omega

/-- What is before a position and what is after it make up the text. -/
theorem parts_at_position (context : state.current.value = .text text)
    {n k : Int64} (length : n.toInt = text.toList.length) (start : 0 ≤ k.toInt) (inside : k.toInt ≤ n.toInt) :
    ∃ before after, state.substring span [0, k] = .ok (.ofCharacters before) ∧
      state.substring span [k] = .ok (.ofCharacters after) ∧ before ++ after = text.toList := by
  have zero : (0 : Int64).toInt = 0 := rfl
  refine ⟨text.toList.take k.toInt.toNat, text.toList.drop k.toInt.toNat, ?_, ?_, List.take_append_drop _ _⟩
  · rw [substring_ok_iff span context, zero]
    exact ⟨by omega, rfl⟩
  · rw [substring_from span context length, substring_ok_iff span context, length, Int.toNat_natCast,
      List.take_length]
    exact ⟨by omega, rfl⟩

/-- No position is refused in any other way than as out of bounds. -/
theorem characters_refused (context : state.current.value = .text text) {failure : Failure}
    (refused : (∃ i, state.characterAt span i = .error failure) ∨
      ∃ b e, state.substring span [b, e] = .error failure) :
    ∃ position length, failure = .fault (.indexOutOfBounds position length) span := by
  obtain ⟨i, refused⟩ | ⟨b, e, refused⟩ := refused
  · rw [characterAt_eq span context] at refused
    split at refused
    · cases refused
    · exact ⟨_, _, (Except.error.inj refused).symm⟩
  · rw [substring_between span context] at refused
    split at refused
    · cases refused
    · next fault sliced =>
      obtain ⟨position, length, rfl⟩ := Method.slice_error sliced
      exact ⟨position, length, (Except.error.inj refused).symm⟩

/-- Indices and parts agree on the characters of a text, of which there are `n`. -/
structure State.ReadsCharacters (state : State W) (span : Span) (text : String) (n : Int64) : Prop where
  count : n.toInt = text.toList.length
  property : ((Property.evaluate "length" span).outcome state).1 = .ok ⟨.int n, .int⟩
  method : ((Method.evaluate "length" [] span).outcome state).1 = .ok ⟨.int n, .int⟩
  /-- An index is defined on the positions of the text. -/
  index_defined (i : Int64) :
    (∃ value, state.characterAt span i = .ok value) ↔ 0 ≤ i.toInt ∧ i.toInt < n.toInt
  /-- It selects the character there, which is the part up to the next position. -/
  index_part (i : Int64) (value : TypedValue) : state.characterAt span i = .ok value →
    state.substring span [i, i + 1] = .ok value ∧
      ∃ character, text.toList[i.toInt.toNat]? = some character ∧ value = .ofCharacters [character]
  /-- A part is defined between positions in ascending order, of which the last may be the end. -/
  part_defined (b e : Int64) : (∃ value, state.substring span [b, e] = .ok value) ↔
    0 ≤ b.toInt ∧ b.toInt ≤ e.toInt ∧ e.toInt ≤ n.toInt
  /-- It has the characters in between. -/
  part_characters (b e : Int64) (value : TypedValue) : state.substring span [b, e] = .ok value →
    ∃ part, value = .ofCharacters part ∧ part.length = e.toInt - b.toInt ∧
      ∀ j character, part[j]? = some character →
        state.characterAt span (b + .ofNat j) = .ok (.ofCharacters [character])
  /-- Without an end, a part goes up to the end of the text. -/
  part_open (b : Int64) : state.substring span [b] = state.substring span [b, n]
  /-- What is before a position and what is after it make up the text. -/
  parts_join (k : Int64) : 0 ≤ k.toInt → k.toInt ≤ n.toInt → ∃ before after,
    state.substring span [0, k] = .ok (.ofCharacters before) ∧
      state.substring span [k] = .ok (.ofCharacters after) ∧ before ++ after = text.toList
  /-- What is refused is out of bounds. -/
  refused (failure : Failure) : (∃ i, state.characterAt span i = .error failure) ∨
      (∃ b, state.substring span [b] = .error failure) ∨
      (∃ b e, state.substring span [b, e] = .error failure) →
    ∃ position length, failure = .fault (.indexOutOfBounds position length) span

/-- A text is a sequence of characters that indices and parts agree on, whatever the integers; and literals
select what their integers do, wherever the nesting limit leaves room for their nodes. -/
theorem characters_consistent (context : state.current.value = .text text)
    (short : text.toList.length < Int64.maxValue.toInt.toNat) :
    (∃ n, state.ReadsCharacters span text n) ∧
      (state.enter.exhausted? = none →
        (∀ i, ((Expr.indexer (.literal (.int i) inner) span).evaluate.outcome state).1 =
          state.characterAt span i) ∧
        ∀ dotted positions, ((Expr.method "substring" (positions.map fun i => .literal (.int i) inner) dotted
          span).evaluate.outcome state).1 = state.substring span positions) := by
  have greatest : Int64.maxValue.toInt = 9223372036854775807 := rfl
  have count : (Int64.ofNat text.toList.length).toInt = text.toList.length :=
    Int64.toInt_ofNat_of_lt (by omega)
  refine ⟨⟨.ofNat text.toList.length, ?_⟩, fun room => ⟨result_indexer inner span context room,
    result_substring inner span context room⟩⟩
  exact {
    count
    property := length_property span context short
    method := length_method span context short
    index_defined i := by
      simp only [characterAt_ok_iff span context, count]
      constructor
      · rintro ⟨_, position, character, integer, found, -⟩
        have inside := (List.getElem?_eq_some_iff.mp found).1
        omega
      · rintro ⟨start, inside⟩
        exact ⟨_, i.toInt.toNat, _, (Int.toNat_of_nonneg start).symm, List.getElem?_eq_getElem (by omega), rfl⟩
    index_part i value := part_of_characterAt span context count
    part_defined b e := by
      simp only [substring_ok_iff span context, count, exists_and_left, exists_eq', and_true]
    part_characters b e value := characterAt_of_part span context
    part_open := substring_from span context count
    parts_join k := parts_at_position span context count
    refused failure refused := by
      apply characters_refused span context
      obtain found | ⟨b, refused⟩ | refused := refused
      · exact .inl found
      · exact .inr ⟨b, _, (substring_from span context count b).symm.trans refused⟩
      · exact .inr refused }

end

/-- Three characters of one, two and three bytes: the last one is at 2, and the least integer is refused. -/
theorem characters_consistent_multibyte :
    let state : State Unit := .initial ⟨.text "né€", .text⟩ .standard ⟨.empty, ()⟩
    let here : Span := ⟨0, 1⟩
    (∃ value, state.characterAt here 2 = .ok value) ∧
      (¬ ∃ value, state.characterAt here Int64.minValue = .ok value) ∧
      (∃ value, state.substring here [1, 3] = .ok value) ∧
      (¬ ∃ value, state.substring here [2, 1] = .ok value) ∧
      ((Expr.indexer (.literal (.int 1) here) here).evaluate.outcome state).1 = .ok ⟨.text "é", .text⟩ := by
  intro state here
  have context : state.current.value = .text "né€" := rfl
  obtain ⟨⟨n, reads⟩, literal⟩ := characters_consistent here here context (by decide)
  have three : n.toInt = 3 := reads.count
  refine ⟨(reads.index_defined 2).mpr ?_, fun found => ?_, (reads.part_defined 1 3).mpr ?_, fun found => ?_,
    ((literal rfl).1 1).trans rfl⟩
  · rw [three]
    decide
  · exact absurd ((reads.index_defined _).mp found).1 (by decide)
  · rw [three]
    decide
  · exact absurd ((reads.part_defined 2 1).mp found).2.1 (by decide)

end DotChain
