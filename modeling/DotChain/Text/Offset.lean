/-!
# Byte offsets in a text

Offsets count the bytes of a text's UTF-8 form. An offset is a boundary when it does not fall
inside a character, and then the text splits there. Main statement: `splitAt?_eq_some_iff`.
-/

namespace DotChain.Text

/-- The number of bytes that a text occupies. -/
def bytes : List Char → Nat
  | [] => 0
  | c :: text => c.utf8Size + bytes text

@[simp] theorem bytes_nil : bytes [] = 0 := rfl

@[simp] theorem bytes_cons (c : Char) (text : List Char) :
    bytes (c :: text) = c.utf8Size + bytes text := rfl

@[simp] theorem bytes_append (left right : List Char) :
    bytes (left ++ right) = bytes left + bytes right := by
  induction left with
  | nil => simp
  | cons c left ih => simp [ih, Nat.add_assoc]

/-- Splits a text at a byte offset; an offset inside a character or past the end splits nothing. -/
def splitAt? : Nat → List Char → Option (List Char × List Char)
  | 0, text => some ([], text)
  | _ + 1, [] => none
  | offset + 1, c :: text =>
    if c.utf8Size ≤ offset + 1 then
      (splitAt? (offset + 1 - c.utf8Size) text).map fun (left, right) => (c :: left, right)
    else none

/-- A text splits at exactly the offsets that its prefixes occupy. -/
theorem splitAt?_eq_some_iff {offset : Nat} {text left right : List Char} :
    splitAt? offset text = some (left, right) ↔ text = left ++ right ∧ bytes left = offset := by
  induction text generalizing offset left with
  | nil =>
    cases offset with
    | zero =>
      simp only [splitAt?, Option.some.injEq, Prod.mk.injEq]
      constructor
      · rintro ⟨rfl, rfl⟩; simp
      · rintro ⟨h, _⟩; simp_all
    | succ offset =>
      simp only [splitAt?, reduceCtorEq, false_iff]
      rintro ⟨h, size⟩
      simp_all
  | cons c text ih =>
    cases offset with
    | zero =>
      simp only [splitAt?, Option.some.injEq, Prod.mk.injEq]
      constructor
      · rintro ⟨rfl, rfl⟩; simp
      · rintro ⟨h, size⟩
        cases left with
        | nil => simp_all
        | cons d left =>
          have := d.utf8Size_pos
          simp only [bytes_cons] at size
          omega
    | succ offset =>
      unfold splitAt?
      split
      · next fits =>
        constructor
        · intro split
          obtain ⟨⟨front, back⟩, found, same⟩ := Option.map_eq_some_iff.mp split
          obtain ⟨rfl, rfl⟩ := Prod.mk.inj same
          obtain ⟨rfl, size⟩ := ih.mp found
          refine ⟨rfl, ?_⟩
          simp only [bytes_cons, size]
          omega
        · rintro ⟨h, size⟩
          cases left with
          | nil => simp at size
          | cons d left =>
            obtain ⟨rfl, rfl⟩ := List.cons.inj h
            simp only [bytes_cons] at size
            rw [ih.mpr ⟨rfl, by omega⟩]
            rfl
      · next wide =>
        simp only [reduceCtorEq, false_iff]
        rintro ⟨h, size⟩
        cases left with
        | nil => simp at size
        | cons d left =>
          obtain ⟨rfl, rfl⟩ := List.cons.inj h
          simp only [bytes_cons] at size
          omega

end DotChain.Text
