import DotChain.Expr.Basic

/-!
# Rendering expressions

The text of an expression depends on its tree alone. Each node writes its own punctuation, so the
text of a chain is the concatenation of the texts of its segments. An assignment inside a larger
node stands in parentheses, so that its sign does not capture what surrounds it.
-/

namespace DotChain.Expr

/-- Puts the text of an assignment in parentheses. -/
def enclose : Expr → String → String
  | assign .., text => "(" ++ text ++ ")"
  | _, text => text

/-- The point in front of a segment that stood after one. -/
def point (dotted : Bool) : String := if dotted then "." else ""

mutual

/-- The source text of an expression. -/
def render : Expr → String
  | literal value _ => value.render
  | property name dotted _ => point dotted ++ name
  | reference name _ => "#" ++ name
  | indexer index _ => "[" ++ render index ++ "]"
  | method name args dotted _ => point dotted ++ name ++ "(" ++ renderArgs args ++ ")"
  | assign target value _ => enclose target (render target) ++ " = " ++ render value
  | chain head tail _ => enclose head (render head) ++ renderSegments tail

/-- Arguments, separated by commas. -/
def renderArgs : List Expr → String
  | [] => ""
  | [arg] => enclose arg (render arg)
  | arg :: next :: rest => enclose arg (render arg) ++ "," ++ renderArgs (next :: rest)

/-- Segments, one after the other. -/
def renderSegments : List Expr → String
  | [] => ""
  | segment :: rest => enclose segment (render segment) ++ renderSegments rest

end

/-- The text of an expression as a part of a larger one. -/
def renderOperand (e : Expr) : String := enclose e e.render

end DotChain.Expr
