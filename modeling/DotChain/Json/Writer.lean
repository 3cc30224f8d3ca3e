import DotChain.Binary64.Text
import DotChain.Json.Basic
import DotChain.Text.Quoted

/-!
# Writing documents

The written form has no blanks. In texts only the double quote, the backslash and control characters
are escaped.
-/

namespace DotChain.Json

namespace Writer

/-- How a character stands between double quotes. -/
def escape (c : Char) : List Char :=
  if c = '"' then ['\\', '"']
  else if c = '\\' then ['\\', '\\']
  else if c = '\x08' then ['\\', 'b']
  else if c = '\x0c' then ['\\', 'f']
  else if c = '\n' then ['\\', 'n']
  else if c = '\r' then ['\\', 'r']
  else if c = '\t' then ['\\', 't']
  else if c.toNat < 0x20 then
    ['\\', 'u', '0', '0', Text.hexDigit (c.toNat / 16), Text.hexDigit c.toNat]
  else [c]

/-- A text between double quotes. -/
def quote (text : String) : String :=
  String.ofList ('"' :: (text.toList.flatMap escape ++ ['"']))

end Writer

mutual

/-- The written form of a document. -/
def write : Json → String
  | null => "null"
  | bool value => toString value
  | int value => toString value.toInt
  | float value => if value.isFinite then Binary64.Form.document.write value else "null"
  | text value => Writer.quote value
  | array items => "[" ++ writeItems items ++ "]"
  | object members => "\x7b" ++ writeMembers members ++ "\x7d"

/-- Items, separated by commas. -/
def writeItems : List Json → String
  | [] => ""
  | [item] => write item
  | item :: next :: rest => write item ++ "," ++ writeItems (next :: rest)

/-- Members, separated by commas. -/
def writeMembers : List (String × Json) → String
  | [] => ""
  | [(name, item)] => Writer.quote name ++ ":" ++ write item
  | (name, item) :: next :: rest =>
    Writer.quote name ++ ":" ++ write item ++ "," ++ writeMembers (next :: rest)

end

end DotChain.Json
