import DotChain.Literal
import DotChain.Span

/-!
# Tokens

A token is a smallest meaningful piece of source text together with the place where it stands.
-/

namespace DotChain

/-- What a token is. -/
inductive TokenKind where
  | literal (value : Literal)
  | name (text : String)
  | dot
  | comma
  | openParen
  | closeParen
  | openBracket
  | closeBracket
  | equals
  | hash
deriving DecidableEq

/-- What a token is and where it stands. -/
structure Token where
  kind : TokenKind
  span : Span
deriving DecidableEq

/-- How a message names a token. -/
def TokenKind.describe : TokenKind → String
  | .literal .null => "`null`"
  | .literal (.bool true) => "`true`"
  | .literal (.bool false) => "`false`"
  | .literal (.int value) => s!"integer `{value.toInt}`"
  | .literal (.float value) => s!"number `{Binary64.Form.display.write value}`"
  | .literal (.text _) => "string literal"
  | .name text => s!"identifier `{text}`"
  | .dot => "`.`"
  | .comma => "`,`"
  | .openParen => "`(`"
  | .closeParen => "`)`"
  | .openBracket => "`[`"
  | .closeBracket => "`]`"
  | .equals => "`=`"
  | .hash => "`#`"

end DotChain
