import DotChain.Json.Numeral

/-!
# Reading documents

A document is read strictly: one value, with nothing but blanks around it; no comma behind the last
item; names and texts between double quotes, without raw control characters; code units that form
pairs always in pairs. Arrays and objects nest at most 127 deep. Every step leaves a shorter text.
-/

namespace DotChain.Json

namespace Reader

/-- What is read from the front of a text and the shorter text that remains, if anything is. -/
abbrev Step (input : List Char) (α : Type) :=
  Option (α × { rest : List Char // rest.length < input.length })

/-- The characters that may stand between the parts of a document. -/
def isGap (c : Char) : Bool := c == ' ' || c == '\t' || c == '\n' || c == '\r'

/-- The text behind the gap at its front. -/
def skip (input : List Char) : { rest : List Char // rest.length ≤ input.length } :=
  ⟨input.dropWhile isGap, (List.dropWhile_sublist isGap).length_le⟩

/-- Skips a gap and reads one given character. -/
def mark (c : Char) (input : List Char) : Step input Unit :=
  match skip input with
  | ⟨d :: rest, fits⟩ =>
    if c = d then some ((), ⟨rest, by simp only [List.length_cons] at fits; omega⟩) else none
  | ⟨[], _⟩ => none

/-! ## Texts -/

/-- The value of a hexadecimal digit of either case. -/
def hexValue? (c : Char) : Option Nat :=
  if '0' ≤ c ∧ c ≤ '9' then some (c.toNat - 48)
  else if 'a' ≤ c ∧ c ≤ 'f' then some (c.toNat - 87)
  else if 'A' ≤ c ∧ c ≤ 'F' then some (c.toNat - 55)
  else none

/-- Reads a code unit of four hexadecimal digits. -/
def codeUnit (input : List Char) : Step input Nat :=
  match input with
  | a :: b :: c :: d :: rest =>
    match hexValue? a, hexValue? b, hexValue? c, hexValue? d with
    | some a, some b, some c, some d =>
      some (((a * 16 + b) * 16 + c) * 16 + d, ⟨rest, by simp +arith⟩)
    | _, _, _, _ => none
  | _ => none

/-- Whether a code unit is the first of a pair. -/
def isLeading (unit : Nat) : Bool := decide (0xd800 ≤ unit) && decide (unit ≤ 0xdbff)

/-- Whether a code unit is the second of a pair. -/
def isTrailing (unit : Nat) : Bool := decide (0xdc00 ≤ unit) && decide (unit ≤ 0xdfff)

/-- Reads a character that is written as one code unit or as a pair of them. -/
def character (input : List Char) : Step input Char :=
  match codeUnit input with
  | none => none
  | some (unit, ⟨rest, shorter⟩) =>
    if isTrailing unit then none
    else if isLeading unit then
      match rest with
      | '\\' :: 'u' :: second =>
        match codeUnit second with
        | none => none
        | some (other, ⟨rest, _⟩) =>
          if isTrailing other then
            some (Char.ofNat ((unit - 0xd800) * 0x400 + (other - 0xdc00) + 0x10000),
              ⟨rest, by simp only [List.length_cons] at shorter; omega⟩)
          else none
      | _ => none
    else some (Char.ofNat unit, ⟨rest, shorter⟩)

/-- The character that a letter behind a backslash stands for. -/
def escaped? : Char → Option Char
  | '"' => some '"'
  | '\\' => some '\\'
  | '/' => some '/'
  | 'b' => some '\x08'
  | 'f' => some '\x0c'
  | 'n' => some '\n'
  | 'r' => some '\r'
  | 't' => some '\t'
  | _ => none

/-- Reads what stands behind a backslash. -/
def escape (input : List Char) : Step input Char :=
  match input with
  | 'u' :: rest =>
    match character rest with
    | none => none
    | some (c, ⟨rest, _⟩) => some (c, ⟨rest, by simp only [List.length_cons]; omega⟩)
  | c :: rest => (escaped? c).map fun c => (c, ⟨rest, by simp⟩)
  | [] => none

/-- Reads characters up to the closing quote. -/
def characters (input : List Char) : Step input (List Char) :=
  match input with
  | [] => none
  | '"' :: rest => some ([], ⟨rest, by simp⟩)
  | '\\' :: rest =>
    match escape rest with
    | none => none
    | some (c, ⟨rest, _⟩) =>
      match characters rest with
      | none => none
      | some (tail, ⟨rest, _⟩) => some (c :: tail, ⟨rest, by simp only [List.length_cons]; omega⟩)
  | c :: rest =>
    if c.toNat < 0x20 then none
    else
      match characters rest with
      | none => none
      | some (tail, ⟨rest, _⟩) => some (c :: tail, ⟨rest, by simp only [List.length_cons]; omega⟩)
termination_by input.length
decreasing_by all_goals simp only [List.length_cons]; omega

/-- Skips a gap and reads a name of a member with the colon behind it. -/
def name (input : List Char) : Step input String :=
  match mark '"' input with
  | none => none
  | some (_, ⟨rest, _⟩) =>
    match characters rest with
    | none => none
    | some (tail, ⟨rest, _⟩) =>
      match mark ':' rest with
      | none => none
      | some (_, ⟨rest, _⟩) => some (String.ofList tail, ⟨rest, by omega⟩)

/-! ## Values -/

/-- Reads a number. -/
def number (input : List Char) : Step input Json :=
  match read : Numeral.read? input with
  | none => none
  | some (numeral, rest) =>
    numeral.number?.map fun value => (value, ⟨rest, Numeral.read?_shorter read⟩)

/-- Reads a value that is no array and no object. -/
def scalar (input : List Char) : Step input Json :=
  match input with
  | 'n' :: 'u' :: 'l' :: 'l' :: rest => some (.null, ⟨rest, by simp +arith⟩)
  | 't' :: 'r' :: 'u' :: 'e' :: rest => some (.bool true, ⟨rest, by simp +arith⟩)
  | 'f' :: 'a' :: 'l' :: 's' :: 'e' :: rest => some (.bool false, ⟨rest, by simp +arith⟩)
  | '"' :: rest =>
    match characters rest with
    | none => none
    | some (tail, ⟨rest, _⟩) =>
      some (.text (String.ofList tail), ⟨rest, by simp only [List.length_cons]; omega⟩)
  | input => number input

mutual

/-- Skips a gap and reads a value whose arrays and objects nest at most `room` deep. -/
def value (room : Nat) (input : List Char) : Step input Json :=
  match skip input with
  | ⟨[], _⟩ => none
  | ⟨c :: rest, fits⟩ =>
    if c = '[' then
      match array room rest with
      | none => none
      | some (v, ⟨rest, _⟩) => some (v, ⟨rest, by simp only [List.length_cons] at fits; omega⟩)
    else if c = '\x7b' then
      match object room rest with
      | none => none
      | some (v, ⟨rest, _⟩) => some (v, ⟨rest, by simp only [List.length_cons] at fits; omega⟩)
    else
      match scalar (c :: rest) with
      | none => none
      | some (v, ⟨rest, _⟩) => some (v, ⟨rest, by omega⟩)
termination_by (input.length, 0)
decreasing_by all_goals simp only [List.length_cons] at fits; omega

/-- Reads what stands behind an opening bracket. -/
def array (room : Nat) (input : List Char) : Step input Json :=
  match room with
  | 0 => none
  | room + 1 =>
    match mark ']' input with
    | some (_, rest) => some (.array [], rest)
    | none =>
      match items room input with
      | none => none
      | some (values, rest) => some (.array values, rest)
termination_by (input.length, 2)
decreasing_by exact Prod.Lex.right _ (by decide)

/-- Reads what stands behind an opening brace. -/
def object (room : Nat) (input : List Char) : Step input Json :=
  match room with
  | 0 => none
  | room + 1 =>
    match mark '\x7d' input with
    | some (_, rest) => some (.object [], rest)
    | none =>
      match members room input with
      | none => none
      | some (entries, rest) => some (ofMembers entries, rest)
termination_by (input.length, 2)
decreasing_by exact Prod.Lex.right _ (by decide)

/-- Reads one or more items and the closing bracket. -/
def items (room : Nat) (input : List Char) : Step input (List Json) :=
  match value room input with
  | none => none
  | some (first, ⟨rest, _⟩) =>
    match mark ',' rest with
    | none =>
      match mark ']' rest with
      | none => none
      | some (_, ⟨rest, _⟩) => some ([first], ⟨rest, by omega⟩)
    | some (_, ⟨rest, _⟩) =>
      match items room rest with
      | none => none
      | some (others, ⟨rest, _⟩) => some (first :: others, ⟨rest, by omega⟩)
termination_by (input.length, 1)
decreasing_by all_goals omega

/-- Reads one or more members and the closing brace. -/
def members (room : Nat) (input : List Char) : Step input (List (String × Json)) :=
  match name input with
  | none => none
  | some (key, ⟨rest, _⟩) =>
    match value room rest with
    | none => none
    | some (first, ⟨rest, _⟩) =>
      match mark ',' rest with
      | none =>
        match mark '\x7d' rest with
        | none => none
        | some (_, ⟨rest, _⟩) => some ([(key, first)], ⟨rest, by omega⟩)
      | some (_, ⟨rest, _⟩) =>
        match members room rest with
        | none => none
        | some (others, ⟨rest, _⟩) => some ((key, first) :: others, ⟨rest, by omega⟩)
termination_by (input.length, 1)
decreasing_by all_goals omega

end

/-- How deep arrays and objects may nest. -/
def nestingLimit : Nat := 127

end Reader

/-- The document that a text holds. -/
def read? (text : String) : Option Json :=
  match Reader.value Reader.nestingLimit text.toList with
  | none => none
  | some (document, ⟨rest, _⟩) => if (Reader.skip rest).val.isEmpty then some document else none

end DotChain.Json
