import DotChain.Text.Offset

/-!
# Parts of a text by offsets

Where the characters of a text stand, and the part of it between two offsets. Main statement:
`slice?_eq_some_iff`.
-/

namespace DotChain.Text

/-- The offsets at which the characters of a text stand, if the text itself stands at an offset. -/
def offsets (start : Nat) : List Char → List Nat
  | [] => []
  | c :: text => start :: offsets (start + c.utf8Size) text

/-- The offset of the first place where a character stands. -/
def firstOffset? (c : Char) : List Char → Option Nat
  | [] => none
  | d :: text => if d = c then some 0 else (firstOffset? c text).map (d.utf8Size + ·)

/-- The offset of the last place where a character stands. -/
def lastOffset? (c : Char) : List Char → Option Nat
  | [] => none
  | d :: text =>
    match lastOffset? c text with
    | some offset => some (d.utf8Size + offset)
    | none => if d = c then some 0 else none

/-- The part of a text from one offset up to another one. There is none if they stand in the wrong order or
one of them is no boundary. -/
def slice? (start stop : Nat) (text : List Char) : Option (List Char) :=
  if start ≤ stop then
    (splitAt? start text).bind fun cut => (splitAt? (stop - start) cut.2).map (·.1)
  else none

section
variable {c : Char} {start stop : Nat} {text front back part : List Char}

@[simp] theorem length_offsets (start : Nat) (text : List Char) : (offsets start text).length = text.length := by
  induction text generalizing start with
  | nil => rfl
  | cons c text ih => simp [offsets, ih]

theorem offsets_append (start : Nat) (left right : List Char) :
    offsets start (left ++ right) = offsets start left ++ offsets (start + bytes left) right := by
  induction left generalizing start with
  | nil => rfl
  | cons c left ih => simp [offsets, ih, Nat.add_assoc]

/-- The characters of a text stand inside it. -/
theorem mem_offsets {offset : Nat} (member : offset ∈ offsets start text) :
    start ≤ offset ∧ offset < start + bytes text := by
  induction text generalizing start with
  | nil => cases member
  | cons c text ih =>
    have size := c.utf8Size_pos
    rw [bytes_cons]
    rcases List.mem_cons.mp member with rfl | later
    · omega
    · have inside := ih later
      omega

theorem firstOffset?_eq_none (missing : c ∉ text) : firstOffset? c text = none := by
  induction text with
  | nil => rfl
  | cons d text ih =>
    obtain ⟨other, missing⟩ := not_or.mp (missing ∘ List.mem_cons.mpr)
    rw [firstOffset?, if_neg (Ne.symm other), ih missing]
    rfl

theorem firstOffset?_append (missing : c ∉ front) (back : List Char) :
    firstOffset? c (front ++ c :: back) = some (bytes front) := by
  induction front with
  | nil => exact if_pos rfl
  | cons d front ih =>
    obtain ⟨other, missing⟩ := not_or.mp (missing ∘ List.mem_cons.mpr)
    rw [List.cons_append, firstOffset?, if_neg (Ne.symm other), ih missing]
    rfl

theorem lastOffset?_eq_none (missing : c ∉ text) : lastOffset? c text = none := by
  induction text with
  | nil => rfl
  | cons d text ih =>
    obtain ⟨other, missing⟩ := not_or.mp (missing ∘ List.mem_cons.mpr)
    simp only [lastOffset?, ih missing, if_neg (Ne.symm other)]

theorem lastOffset?_append (front : List Char) (missing : c ∉ back) :
    lastOffset? c (front ++ c :: back) = some (bytes front) := by
  induction front with
  | nil => simp [lastOffset?, lastOffset?_eq_none missing]
  | cons d front ih => simp [lastOffset?, ih]

/-- A part of a text stands between what is before it and what is behind it. -/
theorem slice?_eq_some_iff : slice? start stop text = some part ↔
    ∃ left right, text = left ++ part ++ right ∧ bytes left = start ∧ bytes (left ++ part) = stop := by
  unfold slice?
  constructor
  · intro cut
    split at cut
    · next ordered =>
      obtain ⟨⟨left, after⟩, first, second⟩ := Option.bind_eq_some_iff.mp cut
      obtain ⟨⟨covered, right⟩, behind, same⟩ := Option.map_eq_some_iff.mp second
      obtain rfl : covered = part := same
      obtain ⟨rfl, size⟩ := splitAt?_eq_some_iff.mp first
      obtain ⟨rfl, width⟩ := splitAt?_eq_some_iff.mp behind
      refine ⟨left, right, (List.append_assoc ..).symm, size, ?_⟩
      rw [bytes_append]
      omega
    · cases cut
  · rintro ⟨left, right, rfl, rfl, rfl⟩
    have first : splitAt? (bytes left) (left ++ part ++ right) = some (left, part ++ right) :=
      splitAt?_eq_some_iff.mpr ⟨List.append_assoc .., rfl⟩
    have second : splitAt? (bytes part) (part ++ right) = some (part, right) :=
      splitAt?_eq_some_iff.mpr ⟨rfl, rfl⟩
    rw [bytes_append, if_pos (Nat.le_add_right ..), Nat.add_sub_cancel_left, first, Option.bind_some]
    dsimp only
    rw [second]
    rfl

end

end DotChain.Text
