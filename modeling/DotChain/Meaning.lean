import DotChain.Access.Indexer
import DotChain.Access.Method
import DotChain.Access.Property
import DotChain.Access.Variable
import DotChain.Expr.Basic
import DotChain.Node

/-!
# The meaning of expressions

Every expression is a node: what it evaluates to, what storing a value to it does and whether that
would succeed. Each of these operations is one level of nesting, whose depth is limited.
-/

namespace DotChain

variable {W : Type}

/-- A node that has a value but no location, called by the given name when it is assigned. -/
def Node.valueOnly (name : String) (span : Span) (evaluate : Eval W TypedValue) : Node W where
  span := span
  evaluate := evaluate
  assign _ := Eval.fault (.notAssignable name) span
  isAssignable := pure false

/-- A node that stores the value of one node in the location of another, and has that value. -/
def Node.assignment (target value : Node W) (span : Span) : Node W :=
  .valueOnly "an assignment" span do
    let result ← value.evaluate
    target.assign result
    return result

namespace Expr

variable [Host W]

mutual

/-- What an expression does. -/
def node : Expr → Node W
  | literal value span => (Node.valueOnly "a literal" span (pure value.typed)).nested
  | property name _ span =>
    Node.nested ⟨span, Property.evaluate name span, Property.assign name span,
      Property.isAssignable name⟩
  | reference name span =>
    Node.nested ⟨span, Variable.evaluate name span, Variable.assign name span,
      pure (Variable.isAssignable name)⟩
  | indexer index span =>
    let key := (node index).evaluate
    Node.nested ⟨span, Indexer.evaluate key span, Indexer.assign key span,
      Indexer.isAssignable key⟩
  | method name args _ span =>
    (Node.valueOnly "a method call" span
      (Method.evaluate name ((nodes args).map (·.evaluate)) span)).nested
  | assign target value span => (Node.assignment (node target) (node value) span).nested
  | chain head tail span => (Chain.node (node head) (nodes tail) span).nested

/-- What several expressions do. -/
def nodes : List Expr → List (Node W)
  | [] => []
  | e :: rest => node e :: nodes rest

end

/-- The value of an expression. -/
def evaluate (e : Expr) : Eval W TypedValue := e.node.evaluate

/-- Stores a value in the location that an expression denotes. -/
def store (e : Expr) (value : TypedValue) : Eval W Unit := e.node.assign value

/-- Whether storing a value to an expression would succeed. -/
def isAssignable (e : Expr) : Eval W Bool := e.node.isAssignable

@[simp] theorem node_span (e : Expr) : (e.node : Node W).span = e.span := by
  cases e <;> rfl

@[simp] theorem nodes_eq_map (es : List Expr) : (nodes es : List (Node W)) = es.map node := by
  induction es with
  | nil => rfl
  | cons e es ih => simp [nodes, ih]

end Expr

end DotChain
