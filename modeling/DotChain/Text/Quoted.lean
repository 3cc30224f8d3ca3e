/-!
# Quoted texts

Two ways of quoting: between single quotes, where a quote inside is written twice, and between
double quotes, where special characters are written as escapes. Main statement:
`unquote?_quote`.
-/

namespace DotChain.Text

/-- A text with each single quote written twice. -/
def doubleQuotes : List Char → List Char
  | [] => []
  | c :: text => if c = '\'' then '\'' :: '\'' :: doubleQuotes text else c :: doubleQuotes text

/-- A text between single quotes. -/
def quote (text : List Char) : List Char := '\'' :: (doubleQuotes text ++ ['\''])

/-- Reads what follows an opening single quote, up to the closing one, which must end the text. -/
def unquoteRest? : List Char → Option (List Char)
  | [] => none
  | ['\''] => some []
  | '\'' :: '\'' :: rest => (unquoteRest? rest).map ('\'' :: ·)
  | c :: rest => if c = '\'' then none else (unquoteRest? rest).map (c :: ·)

/-- The text that stands between single quotes. -/
def unquote? : List Char → Option (List Char)
  | '\'' :: rest => unquoteRest? rest
  | _ => none

private theorem unquoteRest?_doubleQuotes (text : List Char) :
    unquoteRest? (doubleQuotes text ++ ['\'']) = some text := by
  induction text with
  | nil => rfl
  | cons c text ih =>
    unfold doubleQuotes
    split
    · next same => simp [unquoteRest?, ih, same]
    · next other => simp [unquoteRest?, ih, other]

/-- What was quoted reads back. -/
theorem unquote?_quote (text : List Char) : unquote? (quote text) = some text :=
  unquoteRest?_doubleQuotes text

private theorem eq_doubleQuotes_of_unquoteRest? {rest text : List Char} (read : unquoteRest? rest = some text) :
    rest = doubleQuotes text ++ ['\''] := by
  fun_induction unquoteRest? rest generalizing text with
  | case1 => cases read
  | case2 =>
    obtain rfl := Option.some.inj read
    rfl
  | case3 rest ih =>
    obtain ⟨inner, later, rfl⟩ := Option.map_eq_some_iff.mp read
    simp [doubleQuotes, ih later]
  | case4 => cases read
  | case5 c rest _ _ other ih =>
    obtain ⟨inner, later, rfl⟩ := Option.map_eq_some_iff.mp read
    simp [doubleQuotes, other, ih later]

/-- What reads back was quoted. -/
theorem eq_quote_of_unquote? {quoted text : List Char} (read : unquote? quoted = some text) :
    quoted = quote text := by
  unfold unquote? at read
  split at read
  · rw [quote, eq_doubleQuotes_of_unquoteRest? read]
  · cases read

/-- A hexadecimal digit, in lower case. -/
def hexDigit (n : Nat) : Char := (Nat.toDigits 16 (n % 16)).headD '0'

/-- How a character is written between double quotes. -/
def escape (c : Char) : List Char :=
  if c = '"' then ['\\', '"']
  else if c = '\\' then ['\\', '\\']
  else if c = '\n' then ['\\', 'n']
  else if c = '\r' then ['\\', 'r']
  else if c = '\t' then ['\\', 't']
  else if c.toNat = 0 then ['\\', '0']
  else if c.toNat < 0x20 ∨ c.toNat = 0x7f then
    ['\\', 'u', '{'] ++ Nat.toDigits 16 c.toNat ++ ['}']
  else [c]

/-- A text between double quotes. -/
def escaped (text : String) : String :=
  String.ofList ('"' :: (text.toList.flatMap escape ++ ['"']))

end DotChain.Text
