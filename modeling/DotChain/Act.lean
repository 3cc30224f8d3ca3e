import DotChain.Meaning
import DotChain.Transcript
import Mathlib.Logic.Relation

/-!
# Acts

An act is an operation on an expression in a state. It begins other acts, on the parts of the expression: an
index and the arguments of a method are evaluated with the root as active context, each segment of a chain is
operated on with the value in front of it as active context, and the target of an assignment is stored to after
its operand was evaluated. There is no other way in which an operation adds an active context, and storing to a
name is the only one that binds a variable.
-/

namespace DotChain

variable {W : Type}

/-- An operation on an expression, and the state in which it is asked for. -/
structure Act (W : Type) where
  expr : Expr
  operation : Operation
  state : State W

/-- What is asked of a segment of a chain: the operation on the chain, if no others follow. -/
def Operation.reaching (operation : Operation) (rest : List Expr) : Operation :=
  if rest.isEmpty then operation else .evaluate

theorem Operation.eq_assign_of_reaching {operation : Operation} {rest : List Expr} {value : TypedValue}
    (reaching : operation.reaching rest = .assign value) : operation = .assign value := by
  unfold Operation.reaching at reaching
  split at reaching
  · exact reaching
  · cases reaching

namespace Act

variable [Host W]

/-- What an act leads to. -/
def outcome (act : Act W) : Except Failure Answer × State W :=
  (act.expr.node.perform act.operation).outcome act.state

/-- The state that an act leaves. -/
def final (act : Act W) : State W := act.outcome.2

/-- An act begins another one, on a part of its expression. -/
inductive Begins : Act W → Act W → Prop where
  /-- Whatever is asked of an indexed element, the index is evaluated. -/
  | index {index : Expr} {span : Span} {operation : Operation} {state : State W}
    (entered : state.exhausted? = none) :
    Begins ⟨.indexer index span, operation, state⟩ ⟨index, .evaluate, state.enter.push state.root⟩
  /-- An argument is evaluated after those before it. -/
  | argument {name : String} {before after : List Expr} {arg : Expr} {dotted : Bool} {span : Span}
    {state reached : State W} {values : List Value} (entered : state.exhausted? = none)
    (earlier : (Method.values (before.map Expr.evaluate)).outcome (state.enter.push state.root) =
      (.ok values, reached)) :
    Begins ⟨.method name (before ++ arg :: after) dotted span, .evaluate, state⟩ ⟨arg, .evaluate, reached⟩
  /-- The operand of an assignment is evaluated first. -/
  | operand {target value : Expr} {span : Span} {state : State W} (entered : state.exhausted? = none) :
    Begins ⟨.assign target value span, .evaluate, state⟩ ⟨value, .evaluate, state.enter⟩
  /-- Its value is stored to the target. -/
  | target {target value : Expr} {span : Span} {state reached : State W} {result : TypedValue}
    (entered : state.exhausted? = none)
    (operand : value.evaluate.outcome state.enter = (.ok result, reached)) :
    Begins ⟨.assign target value span, .evaluate, state⟩ ⟨target, .assign result, reached⟩
  /-- The first segment of a chain. -/
  | head {head : Expr} {tail : List Expr} {span : Span} {operation : Operation} {state : State W}
    (entered : state.exhausted? = none) :
    Begins ⟨.chain head tail span, operation, state⟩ ⟨head, operation.reaching tail, state.enter⟩
  /-- A later segment, after those before it. -/
  | segment {head segment : Expr} {before after : List Expr} {span : Span} {operation : Operation}
    {state reached : State W} {target : TypedValue} (entered : state.exhausted? = none)
    (read : (Chain.read true head.node (before.map Expr.node)).outcome state.enter = (.ok target, reached)) :
    Begins ⟨.chain head (before ++ segment :: after) span, operation, state⟩
      ⟨segment, operation.reaching after, reached.push target⟩

/-- An act is another one, or was begun in the course of it. -/
def InCourseOf (inner act : Act W) : Prop := Relation.ReflTransGen Begins act inner

end Act

end DotChain
