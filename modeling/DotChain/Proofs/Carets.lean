import DotChain.Proofs.Blame
import DotChain.Text.Slice

/-!
# Carets

Which characters a report marks, whatever place it is given. Main statement: `render_carets`, the place is
moved into the source text, and if no end of it falls inside a character then the line in which it starts is
shown, with a caret below each character inside the place. What is shown is a `Marking`; its characters are
counted by the offsets at which they stand (`LineAt.columns`), and it can be cut from the text by offsets, since
every slice that this takes exists (`Marking.cut?_eq`).
-/

namespace DotChain.Diagnostic

/-! ## Lines -/

/-- The line of a text in which an offset lies, or at whose end: what stands between two line breaks, or
between one of them and an end of the text. -/
structure LineAt (text : List Char) (offset : Nat) where
  above : List Char
  line : List Char
  below : List Char
  whole : text = above ++ line ++ below
  opens : above = [] ∨ ∃ lines, above = lines ++ ['\n']
  oneLine : '\n' ∉ line
  closes : below = [] ∨ ∃ lines, below = '\n' :: lines
  begins : Text.bytes above ≤ offset
  ends : offset ≤ Text.bytes (above ++ line)

/-- The offsets at which the characters of the line stand. -/
def LineAt.columns {text : List Char} {offset : Nat} (here : LineAt text offset) : List Nat :=
  Text.offsets (Text.bytes here.above) here.line

namespace LineAt
variable {text : List Char} {offset : Nat}

/-- A line does not begin behind one in which the same offset lies. -/
private theorem above_le (here other : LineAt text offset) :
    Text.bytes other.above ≤ Text.bytes here.above := by
  refine Nat.le_of_not_lt fun later => ?_
  have same : here.above ++ (here.line ++ here.below) = other.above ++ (other.line ++ other.below) := by
    rw [← List.append_assoc, ← List.append_assoc, ← here.whole, ← other.whole]
  obtain ⟨middle, above, rest⟩ := Text.append_of_bytes_le same (Nat.le_of_lt later)
  have begins := other.begins
  have ends := here.ends
  rw [above, Text.bytes_append] at later begins
  rw [Text.bytes_append] at ends
  obtain ⟨more, line, -⟩ := Text.append_of_bytes_le rest.symm (by omega)
  -- the line break in front of the other line would stand in this one
  have between : '\n' ∈ middle := by
    rcases other.opens with none | ⟨lines, broken⟩
    · rw [none] at above
      obtain ⟨-, rfl⟩ := List.append_eq_nil_iff.mp above.symm
      simp at later
    · rcases List.eq_nil_or_concat middle with rfl | ⟨front, last, rfl⟩
      · simp at later
      · rw [broken, List.concat_eq_append, ← List.append_assoc] at above
        obtain ⟨-, same⟩ := List.append_inj' above rfl
        obtain rfl := List.singleton_inj.mp same
        simp
  exact here.oneLine (line ▸ List.mem_append_left more between)

private theorem firstLine_rest (here : LineAt text offset) :
    firstLine (here.line ++ here.below) = here.line := by
  rw [firstLine_append here.oneLine]
  rcases here.closes with none | ⟨lines, broken⟩
  · rw [none]
    exact List.append_nil _
  · rw [broken]
    simp [firstLine]

/-- An offset lies in one line only. -/
theorem unique (here other : LineAt text offset) : here = other := by
  have size := Nat.le_antisymm (above_le other here) (above_le here other)
  have cut (line : LineAt text offset) :
      Text.splitAt? (Text.bytes line.above) text = some (line.above, line.line ++ line.below) :=
    Text.splitAt?_eq_some_iff.mpr ⟨by rw [← List.append_assoc]; exact line.whole, rfl⟩
  have same := cut here
  rw [size, cut other, Option.some.injEq, Prod.mk.injEq] at same
  obtain ⟨above, rest⟩ := same
  have line : here.line = other.line := by
    rw [← here.firstLine_rest, ← other.firstLine_rest, rest]
  rw [line] at rest
  have below := List.append_cancel_left rest
  cases here
  cases other
  dsimp only at above line below
  subst above line below
  rfl

end LineAt

/-! ## Places -/

/-- A span moved into a text: no end stands past the text, and the end does not stand before the start. -/
def movedInto (text : List Char) (span : Span) : Span :=
  let start := min span.start (Text.bytes text)
  ⟨start, max start (min span.stop (Text.bytes text))⟩

theorem movedInto_ordered (text : List Char) (span : Span) :
    (movedInto text span).start ≤ (movedInto text span).stop := Nat.le_max_left ..

theorem movedInto_le (text : List Char) (span : Span) : (movedInto text span).stop ≤ Text.bytes text := by
  simp only [movedInto]
  omega

theorem marks_movedInto {text : List Char} {span : Span} : (movedInto text span).Marks text ↔
    Text.IsBoundary text (movedInto text span).start ∧ Text.IsBoundary text (movedInto text span).stop :=
  ⟨fun marks => ⟨marks.start, marks.stop⟩, fun both => ⟨movedInto_ordered text span, both.1, both.2⟩⟩

theorem Excerpt.of?_movedInto (source : List Char) (span : Span) :
    of? source (movedInto source span) = of? source span := by
  have start : min (movedInto source span).start (Text.bytes source) = min span.start (Text.bytes source) := by
    simp only [movedInto]
    omega
  have stop : min (max (movedInto source span).stop (min span.start (Text.bytes source))) (Text.bytes source) =
      min (max span.stop (min span.start (Text.bytes source))) (Text.bytes source) := by
    simp only [movedInto]
    omega
  simp only [of?, start, stop]

/-- Nothing is shown of a place with an end inside a character. -/
theorem Excerpt.of?_eq_none {source : List Char} {place : Span} (ordered : place.start ≤ place.stop)
    (within : place.stop ≤ Text.bytes source) (apart : ¬ place.Marks source) : of? source place = none := by
  have total : place.start ≤ Text.bytes source := by omega
  cases shown : of? source place with
  | none => rfl
  | some excerpt =>
    simp only [of?, Nat.min_eq_left total, Nat.max_eq_left ordered, Nat.min_eq_left within] at shown
    split at shown
    · cases shown
    · next before after first =>
      split at shown
      · cases shown
      · next covered rest second =>
        obtain ⟨rfl, start⟩ := Text.splitAt?_eq_some_iff.mp first
        obtain ⟨rfl, width⟩ := Text.splitAt?_eq_some_iff.mp second
        have stop : Text.bytes (before ++ covered) = place.stop := by
          rw [Text.bytes_append]
          omega
        exact absurd ⟨ordered, ⟨before, _, rfl, start⟩, _, rest, (List.append_assoc ..).symm, stop⟩ apart

/-! ## Cuts -/

/-- The excerpt at a place inside a source text, as it is cut from the text by offsets. -/
def Excerpt.cut? (source : List Char) (place : Span) : Option Excerpt := do
  let before ← Text.slice? 0 place.start source
  let after ← Text.slice? place.start (Text.bytes source) source
  let lineStart := ((Text.lastOffset? '\n' before).map (· + 1)).getD 0
  let lineStop := ((Text.firstOffset? '\n' after).map (place.start + ·)).getD (Text.bytes source)
  let line ← Text.slice? lineStart lineStop source
  let front ← Text.slice? lineStart place.start source
  let marked ← Text.slice? place.start (min place.stop lineStop) source
  return ⟨line, front.length, max marked.length 1⟩

namespace Marking
variable {source : List Char} {place : Span}

/-- The line that is marked. -/
def lineAt (cut : Marking source place) : LineAt source place.start where
  above := cut.above
  line := cut.front ++ cut.marked ++ cut.back
  below := cut.below
  whole := cut.whole
  opens := cut.opens
  oneLine := cut.oneLine
  closes := cut.closes
  begins := by
    have start := cut.start
    rw [Text.bytes_append] at start
    omega
  ends := by
    have start := cut.start
    simp only [Text.bytes_append] at start ⊢
    omega

theorem lineStart_eq (cut : Marking source place) :
    ((Text.lastOffset? '\n' (cut.above ++ cut.front)).map (· + 1)).getD 0 = Text.bytes cut.above := by
  have inside : '\n' ∉ cut.front := fun member => cut.oneLine (by simp [member])
  rcases cut.opens with none | ⟨lines, broken⟩
  · rw [none, List.nil_append, Text.lastOffset?_eq_none inside]
    rfl
  · rw [broken, List.append_assoc, List.singleton_append, Text.lastOffset?_append lines inside,
      Text.bytes_append]
    rfl

theorem lineStop_eq (cut : Marking source place) :
    ((Text.firstOffset? '\n' (cut.marked ++ cut.back ++ cut.below)).map (place.start + ·)).getD
      (Text.bytes source) = Text.bytes (cut.above ++ cut.lineAt.line) := by
  have start := cut.start
  have inside : '\n' ∉ cut.marked ++ cut.back := by
    intro member
    apply cut.oneLine
    rw [List.append_assoc]
    exact List.mem_append_right _ member
  rcases cut.closes with none | ⟨lines, broken⟩
  · have size := congrArg Text.bytes cut.whole
    rw [none, List.append_nil] at size
    rw [none, List.append_nil, Text.firstOffset?_eq_none inside, Option.map_none, Option.getD_none, size]
    rfl
  · rw [broken, Text.firstOffset?_append inside, Option.map_some, Option.getD_some]
    simp only [lineAt, Text.bytes_append] at start ⊢
    omega

/-- All slices can be taken, and show what is marked. -/
theorem cut?_eq (cut : Marking source place) : Excerpt.cut? source place =
    some ⟨cut.lineAt.line, cut.front.length, max cut.marked.length 1⟩ := by
  have start := cut.start
  have whole := cut.whole
  have before : Text.slice? 0 place.start source = some (cut.above ++ cut.front) :=
    Text.slice?_eq_some_iff.mpr
      ⟨[], cut.marked ++ cut.back ++ cut.below, by simpa using whole, rfl, start⟩
  have after : Text.slice? place.start (Text.bytes source) source =
      some (cut.marked ++ cut.back ++ cut.below) :=
    Text.slice?_eq_some_iff.mpr
      ⟨cut.above ++ cut.front, [], by simpa using whole, start, by simp [whole]⟩
  have line : Text.slice? (Text.bytes cut.above) (Text.bytes (cut.above ++ cut.lineAt.line)) source =
      some cut.lineAt.line :=
    Text.slice?_eq_some_iff.mpr ⟨cut.above, cut.below, whole, rfl, rfl⟩
  have front : Text.slice? (Text.bytes cut.above) place.start source = some cut.front :=
    Text.slice?_eq_some_iff.mpr
      ⟨cut.above, cut.marked ++ cut.back ++ cut.below, by simpa using whole, rfl, start⟩
  have marked : Text.slice? place.start
      (min place.stop (Text.bytes (cut.above ++ cut.lineAt.line))) source = some cut.marked :=
    Text.slice?_eq_some_iff.mpr
      ⟨cut.above ++ cut.front, cut.back ++ cut.below, by simpa using whole, start, cut.stop⟩
  simp only [Excerpt.cut?, before, after, Option.bind_eq_bind, Option.bind_some, cut.lineStart_eq,
    cut.lineStop_eq, line, front, marked, Option.pure_def]

/-- The columns of the line: those in front of the place, those that are marked and those behind. -/
theorem columns_eq (cut : Marking source place) : cut.lineAt.columns =
    Text.offsets (Text.bytes cut.above) cut.front ++ (Text.offsets place.start cut.marked ++
      Text.offsets (place.start + Text.bytes cut.marked) cut.back) := by
  have start : Text.bytes cut.above + Text.bytes cut.front = place.start := by
    rw [← Text.bytes_append]
    exact cut.start
  calc cut.lineAt.columns
    _ = Text.offsets (Text.bytes cut.above) (cut.front ++ (cut.marked ++ cut.back)) :=
      congrArg (Text.offsets (Text.bytes cut.above)) (List.append_assoc ..)
    _ = _ := by rw [Text.offsets_append, Text.offsets_append, start]

theorem column_front (cut : Marking source place) {column : Nat}
    (member : column ∈ Text.offsets (Text.bytes cut.above) cut.front) : column < place.start := by
  have start := cut.start
  have inside := Text.mem_offsets member
  rw [Text.bytes_append] at start
  omega

theorem column_marked (cut : Marking source place) {column : Nat}
    (member : column ∈ Text.offsets place.start cut.marked) :
    place.start ≤ column ∧ column < place.stop := by
  have start := cut.start
  have stop := cut.stop
  have inside := Text.mem_offsets member
  rw [Text.bytes_append, start] at stop
  omega

/-- If the place goes on behind what is marked, the line does not. -/
theorem column_back (cut : Marking source place) {column : Nat}
    (member : column ∈ Text.offsets (place.start + Text.bytes cut.marked) cut.back) :
    place.start ≤ column ∧ place.stop ≤ column := by
  have start := cut.start
  have stop := cut.stop
  have inside := Text.mem_offsets member
  simp only [Text.bytes_append] at start stop
  omega

theorem countP_before (cut : Marking source place) :
    cut.lineAt.columns.countP (· < place.start) = cut.front.length := by
  have front : ∀ column ∈ Text.offsets (Text.bytes cut.above) cut.front,
      decide (column < place.start) = true :=
    fun column member => decide_eq_true (cut.column_front member)
  have marked : ∀ column ∈ Text.offsets place.start cut.marked, ¬ decide (column < place.start) = true :=
    fun column member => by simpa using (cut.column_marked member).1
  have back : ∀ column ∈ Text.offsets (place.start + Text.bytes cut.marked) cut.back,
      ¬ decide (column < place.start) = true :=
    fun column member => by simpa using (cut.column_back member).1
  rw [columns_eq, List.countP_append, List.countP_append, List.countP_eq_length.mpr front,
    List.countP_eq_zero.mpr marked, List.countP_eq_zero.mpr back, Text.length_offsets, Nat.add_zero]

theorem countP_marked (cut : Marking source place) :
    cut.lineAt.columns.countP (fun column => place.start ≤ column ∧ column < place.stop) =
      cut.marked.length := by
  have front : ∀ column ∈ Text.offsets (Text.bytes cut.above) cut.front,
      ¬ decide (place.start ≤ column ∧ column < place.stop) = true := by
    intro column member
    have before := cut.column_front member
    rw [decide_eq_true_eq]
    omega
  have marked : ∀ column ∈ Text.offsets place.start cut.marked,
      decide (place.start ≤ column ∧ column < place.stop) = true :=
    fun column member => decide_eq_true (cut.column_marked member)
  have back : ∀ column ∈ Text.offsets (place.start + Text.bytes cut.marked) cut.back,
      ¬ decide (place.start ≤ column ∧ column < place.stop) = true := by
    intro column member
    have behind := cut.column_back member
    rw [decide_eq_true_eq]
    omega
  rw [columns_eq, List.countP_append, List.countP_append, List.countP_eq_zero.mpr front,
    List.countP_eq_length.mpr marked, List.countP_eq_zero.mpr back, Text.length_offsets, Nat.zero_add,
    Nat.add_zero]

end Marking

/-! ## Reports -/

instance (text : List Char) (offset : Nat) : Decidable (Text.IsBoundary text offset) :=
  decidable_of_iff ((Text.splitAt? offset text).isSome = true) (by
    rw [Option.isSome_iff_exists]
    constructor
    · rintro ⟨⟨left, right⟩, split⟩
      exact ⟨left, right, Text.splitAt?_eq_some_iff.mp split⟩
    · rintro ⟨left, right, split⟩
      exact ⟨(left, right), Text.splitAt?_eq_some_iff.mpr split⟩)

/-- A report without a place, or with an end of its place inside a character, is the message alone. Any other
shows the only line in which the place starts. In front of the carets are as many spaces as the line has
characters before the place; each of its characters inside the place has a caret, and if there is none, one
caret stands there. All slices by offsets that this takes exist. -/
theorem render_carets (source message : String) :
    render source message none = "error: " ++ message ++ "\n" ∧
    ∀ span : Span,
      let text := source.toList
      let place := movedInto text span
      if Text.IsBoundary text place.start ∧ Text.IsBoundary text place.stop then
        ∃ (here : LineAt text place.start) (spaces carets : Nat),
          (∀ other, other = here) ∧
          Excerpt.cut? text place = some ⟨here.line, spaces, carets⟩ ∧
          spaces = here.columns.countP (· < place.start) ∧
          carets = max (here.columns.countP fun column => place.start ≤ column ∧ column < place.stop) 1 ∧
          spaces + carets ≤ here.line.length + 1 ∧
          render source message (some span) = "error: " ++ message ++ "\n" ++
            ("  |\n  | " ++ String.ofList here.line ++ "\n  | " ++
              String.ofList (List.replicate spaces ' ' ++ List.replicate carets '^') ++ "\n")
      else render source message (some span) = "error: " ++ message ++ "\n" := by
  have header : "error: " ++ message ++ "\n" ++ "" = "error: " ++ message ++ "\n" := String.append_empty
  refine ⟨header, fun span => ?_⟩
  dsimp only
  split
  · next inside =>
    obtain ⟨cut, shown⟩ := exists_marking (marks_movedInto.mpr inside)
    rw [Excerpt.of?_movedInto] at shown
    refine ⟨cut.lineAt, cut.front.length, max cut.marked.length 1, fun other => other.unique _, cut.cut?_eq,
      cut.countP_before.symm, by rw [cut.countP_marked], ?_, ?_⟩
    · have length : cut.lineAt.line.length = cut.front.length + cut.marked.length + cut.back.length := by
        simp [Marking.lineAt, Nat.add_assoc]
      omega
    · simp only [render, Option.bind_some, shown]
      rfl
  · next apart =>
    have nothing := Excerpt.of?_eq_none (movedInto_ordered _ span) (movedInto_le _ span)
      fun marks => apart (marks_movedInto.mp marks)
    rw [Excerpt.of?_movedInto] at nothing
    simp only [render, Option.bind_some, nothing, header]

/-- The second line of three, with a place that goes on into the third. -/
example : render "é\nab\nc" "m" (some ⟨4, 9⟩) = "error: m\n  |\n  | ab\n  |  ^\n" := by decide +kernel

end DotChain.Diagnostic
