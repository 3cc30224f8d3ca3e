import DotChain.State

/-!
# Variables

Two names are reserved: one for the innermost active context and one for the root. Neither can be
assigned. Every other name is a binding of the state.
-/

namespace DotChain.Variable

variable {W : Type}

/-- The name of the innermost active context. -/
def this : String := "this"

/-- The name of the root. -/
def root : String := "root"

/-- Whether a name is not reserved. -/
def isAssignable (name : String) : Bool := name != this && name != root

/-- The value that a name stands for. -/
def evaluate (name : String) (span : Span) : Eval W TypedValue := do
  let state ← get
  if name = this then return state.current
  else if name = root then return state.root
  else Eval.orFault (state.bindings.get? name) (.undefinedVariable name) span

/-- Binds a name to a value. -/
def assign (name : String) (span : Span) (value : TypedValue) : Eval W Unit :=
  if isAssignable name then modify (·.bind name value)
  else Eval.fault (.notAssignable s!"#{name}") span

end DotChain.Variable
