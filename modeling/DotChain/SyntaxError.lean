import DotChain.Token.Basic

/-!
# Syntax errors

Why a source text is no expression, where, and what a user is told.
-/

namespace DotChain

/-- What would have been in place where something else was found. -/
inductive Expectation where
  | endOfExpression
  | expression
  | memberName
  | variableName
  | closingParen
  | closingBracket
  | commaOrParen
deriving DecidableEq

/-- How a message names what was expected. -/
def Expectation.describe : Expectation → String
  | .endOfExpression => "end of expression"
  | .expression => "an expression"
  | .memberName => "property or method name after `.`"
  | .variableName => "variable name after `#`"
  | .closingParen => "`)`"
  | .closingBracket => "`]`"
  | .commaOrParen => "`,` or `)`"

/-- Why a source text is no expression. -/
inductive SyntaxError where
  | invalidToken (text : String) (span : Span)
  | unexpectedToken (expected : Expectation) (found : Token)
  | unexpectedEnd (expected : Expectation) (span : Span)
  | sourceTooLarge (cause : Span.RangeError)
deriving DecidableEq

namespace SyntaxError

/-- What a user is told. -/
def message : SyntaxError → String
  | .invalidToken text _ => s!"unrecognized input `{text}`"
  | .unexpectedToken expected found =>
    s!"expected {expected.describe}, found {found.kind.describe}"
  | .unexpectedEnd expected _ => s!"unexpected end of expression, expected {expected.describe}"
  | .sourceTooLarge cause => s!"expression source is too large: {cause.message}"

/-- Where the offending input stands. -/
def span : SyntaxError → Span
  | .invalidToken _ span => span
  | .unexpectedToken _ found => found.span
  | .unexpectedEnd _ span => span
  | .sourceTooLarge _ => .unplaced

end SyntaxError

end DotChain
