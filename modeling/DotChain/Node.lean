import DotChain.State

/-!
# Nodes and chains

A node is whatever can be evaluated, stored to and asked whether it can be stored to. A chain
evaluates its segments one after the other, each with the result of the one before it as active
context. Writing goes through the last segment only: those before it are read, to find what is
written to. A chain of one segment is that segment.
-/

namespace DotChain

/-- What a part of an expression can do, and where it stands. -/
structure Node (W : Type) where
  span : Span
  /-- The node's value. -/
  evaluate : Eval W TypedValue
  /-- Stores a value in the location that the node denotes. -/
  assign : TypedValue → Eval W Unit
  /-- Whether storing a value would succeed. -/
  isAssignable : Eval W Bool

/-- The node with one level of nesting around each of its operations. -/
def Node.nested {W : Type} (node : Node W) : Node W where
  span := node.span
  evaluate := Eval.inNode node.span node.evaluate
  assign value := Eval.inNode node.span (node.assign value)
  isAssignable := Eval.inNode node.span node.isAssignable

namespace Chain

variable {W α : Type}

/-- Evaluates segments one after the other, each with the previous result as active context. -/
def follow (correct : Bool) : List (Node W) → TypedValue → Eval W TypedValue
  | [], value => pure value
  | segment :: rest, value => do
    let next ← Eval.inScope value (Eval.positioned correct segment.span segment.evaluate)
    follow correct rest next

/-- Evaluates a first segment in the ambient context and then those that follow it. -/
def read (correct : Bool) (head : Node W) (middle : List (Node W)) : Eval W TypedValue := do
  let first ← Eval.positioned correct head.span head.evaluate
  follow correct middle first

/-- The value of a chain. Errors are moved to the failing segment. -/
def evaluate (head : Node W) (tail : List (Node W)) : Eval W TypedValue :=
  if tail.isEmpty then head.evaluate else read true head tail

/-- Reads up to the last segment of a chain and operates on that. Errors are moved to the failing
segment if the configuration asks for it. -/
def atLast (head : Node W) (tail : List (Node W)) (operation : Node W → Eval W α) : Eval W α :=
  match tail.getLast? with
  | none => operation head
  | some last => do
    let correct := (← get).config.correctsWrites
    let target ← read correct head tail.dropLast
    Eval.inScope target (Eval.positioned correct last.span (operation last))

/-- The text of a chain whose segments have the given texts. -/
def text (segments : List String) : String := String.join segments

/-- A chain as a node. -/
def node (head : Node W) (tail : List (Node W)) (span : Span) : Node W where
  span := span
  evaluate := evaluate head tail
  assign value := atLast head tail (·.assign value)
  isAssignable := atLast head tail (·.isAssignable)

/-! ## How chains come apart -/

/-- A chain of one segment is operated on directly. -/
@[simp] theorem atLast_nil (head : Node W) (operation : Node W → Eval W α) :
    atLast head [] operation = operation head := rfl

/-- A chain of more is read in front of its last segment. -/
theorem atLast_concat (head : Node W) (middle : List (Node W)) (last : Node W)
    (operation : Node W → Eval W α) :
    atLast head (middle ++ [last]) operation = (do
      let correct := (← get).config.correctsWrites
      let target ← read correct head middle
      Eval.inScope target (Eval.positioned correct last.span (operation last))) := by
  simp only [atLast, List.getLast?_concat, List.dropLast_concat]

/-- Following segments is following some of them and then the others. -/
theorem follow_append (correct : Bool) (left right : List (Node W)) (value : TypedValue) :
    follow correct (left ++ right) value = follow correct left value >>= follow correct right := by
  induction left generalizing value with
  | nil => simp [follow]
  | cons segment left ih => simp [follow, ih]

theorem read_append (correct : Bool) (head : Node W) (left right : List (Node W)) :
    read correct head (left ++ right) = read correct head left >>= follow correct right := by
  simp only [read, bind_assoc]
  congr
  funext first
  exact follow_append correct left right first

/-- A chain of more than one segment ends with the value of the last one. -/
theorem evaluate_concat (head : Node W) (middle : List (Node W)) (last : Node W) :
    evaluate head (middle ++ [last]) = (do
      let target ← read true head middle
      Eval.inScope target (Eval.positioned true last.span last.evaluate)) := by
  have several : (middle ++ [last]).isEmpty = false := by simp
  rw [evaluate, several, if_neg Bool.false_ne_true, read_append]
  simp [follow]

end Chain

end DotChain
