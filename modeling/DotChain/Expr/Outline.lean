import DotChain.Expr.Basic

/-!
# Outlines of expressions

An outline shows the whole tree with the span of every node, for inspection.
-/

namespace DotChain.Expr

mutual

/-- The outline of an expression. -/
def outline : Expr → String
  | literal value span => s!"Literal({value.outline}) @ {span.render}"
  | property name dotted span =>
    s!"Property(PropertyRef \x7b name: {Text.escaped name}, dotted: {dotted} \x7d) @ {span.render}"
  | reference name span => s!"Variable({Text.escaped name}) @ {span.render}"
  | indexer index span => s!"Indexer({outline index}) @ {span.render}"
  | method name args dotted span =>
    s!"Method(MethodCall \x7b name: {Text.escaped name}, args: [{outlineAll args}], " ++
      s!"dotted: {dotted} \x7d) @ {span.render}"
  | assign target value span =>
    s!"Assign \x7b target: {outline target}, value: {outline value} \x7d @ {span.render}"
  | chain head tail span =>
    s!"Compound(CompoundChain \x7b head: {outline head}, tail: [{outlineAll tail}] \x7d) @ " ++
      span.render

/-- Outlines of several expressions, separated by commas. -/
def outlineAll : List Expr → String
  | [] => ""
  | [e] => outline e
  | e :: next :: rest => outline e ++ ", " ++ outlineAll (next :: rest)

end

end DotChain.Expr
