import DotChain.Binary64.Text
import DotChain.Text.Quoted

/-!
# Literals

The values that an expression can write down, and how each is written.
-/

namespace DotChain

/-- A value as written in an expression. -/
inductive Literal where
  | null
  | bool (value : Bool)
  | int (value : Int64)
  | float (value : Binary64)
  | text (value : String)
deriving DecidableEq

namespace Literal

/-- The source text of a literal. -/
def render : Literal → String
  | .null => "null"
  | .bool true => "true"
  | .bool false => "false"
  | .int value => toString value.toInt
  | .float value => value.literal
  | .text value => String.ofList (Text.quote value.toList)

/-- Equality of literals, where floats are compared by value. -/
def same : Literal → Literal → Bool
  | .float x, .float y => x.sameNumber y
  | a, b => a == b

/-- The entry of a literal in the outline of a tree. -/
def outline : Literal → String
  | .null => "Null"
  | .bool value => s!"Bool({value})"
  | .int value => s!"Int({value.toInt})"
  | .float value => s!"Float({Binary64.Form.outline.write value})"
  | .text value => s!"Str({Text.escaped value})"

end Literal

end DotChain
