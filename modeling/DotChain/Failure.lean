import DotChain.Span

/-!
# Failures of evaluation

A failure is an error of the expression, which has a place in the source, or an error of the
embedding application, which passes through untouched.
-/

namespace DotChain

/-- What is wrong with an expression that is evaluated. -/
inductive Fault where
  | propertyNotFound (name typeName : String)
  | nullContext (operation : String)
  | readOnlyProperty (name typeName : String)
  | notAssignable (node : String)
  | indexOutOfBounds (index : Int64) (length : Nat)
  | cannotIndex (typeName : String)
  | invalidIndex (expected got : String)
  | undefinedVariable (name : String)
  | methodNotFound (method typeName : String)
  | arityMismatch (method expected : String) (got : Nat)
  | argumentType (method expected got : String)
  | recursionLimit (limit : Nat)
  /-- A fault without a category, in the words of whoever raised it. -/
  | custom (message : String)
deriving DecidableEq

/-- What a user is told about a fault. -/
def Fault.message : Fault → String
  | propertyNotFound name typeName =>
    s!"property '{name}' cannot be found on object of type '{typeName}'"
  | nullContext operation => s!"cannot {operation} on null context"
  | readOnlyProperty name typeName => s!"property '{name}' on type '{typeName}' is read-only"
  | notAssignable node => s!"cannot assign to {node}"
  | indexOutOfBounds index length => s!"index {index.toInt} out of bounds for length {length}"
  | cannotIndex typeName => s!"cannot index into a {typeName}"
  | invalidIndex expected got => s!"index must be {expected}, got {got}"
  | undefinedVariable name => s!"undefined variable: #{name}"
  | methodNotFound method typeName => s!"method '{method}' cannot be found on type '{typeName}'"
  | arityMismatch method expected got =>
    s!"method '{method}' expects {expected} argument(s), got {got}"
  | argumentType method expected got => s!"method '{method}' expects {expected}, got {got}"
  | recursionLimit limit => s!"maximum expression nesting exceeded (limit: {limit})"
  | custom message => message

/-- Further information on an error. -/
structure Note where
  message : String
  span : Option Span
deriving DecidableEq

/-- An error of an expression: what is wrong, what a user is told, where, and further information. -/
structure EvalError where
  fault : Fault
  message : String
  span : Option Span
  notes : List Note
deriving DecidableEq

namespace EvalError

/-- An error that has no place yet, told in the words for its fault. -/
def ofFault (fault : Fault) : EvalError := ⟨fault, fault.message, none, []⟩

/-- The same error at a place. -/
def withSpan (error : EvalError) (span : Span) : EvalError := { error with span := some span }

/-- The same error with one more note. -/
def withNote (error : EvalError) (note : Note) : EvalError :=
  { error with notes := error.notes ++ [note] }

/-- The byte offset of an error, if it has a place. -/
def position (error : EvalError) : Option Nat := error.span.map (·.start)

end EvalError

/-- An error of the embedding application. -/
inductive HostError where
  | object (typeName message : String)
  /-- More contexts were removed than added. -/
  | contextUnderflow
  | other (message : String)
deriving DecidableEq

/-- What a user is told about an error of the application. -/
def HostError.message : HostError → String
  | object typeName message => s!"host object '{typeName}' failed: {message}"
  | contextUnderflow => "active context stack underflow"
  | other message => message

/-- Why an evaluation failed. -/
inductive Failure where
  | eval (error : EvalError)
  | host (error : HostError)
deriving DecidableEq

namespace Failure

/-- The failure of a fault at a place. -/
def fault (fault : Fault) (span : Span) : Failure := .eval ((EvalError.ofFault fault).withSpan span)

/-- What a user is told. -/
def message : Failure → String
  | eval error => error.message
  | host error => error.message

/-- The place of an error of the expression; an error of the application has none. -/
def span : Failure → Option Span
  | eval error => error.span
  | host _ => none

/-- Moves an error of the expression to a place. An error of the application stays as it is. -/
def movedTo (failure : Failure) (span : Span) : Failure :=
  match failure with
  | eval error => eval (error.withSpan span)
  | host error => host error

end Failure

end DotChain
