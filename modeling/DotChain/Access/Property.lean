import DotChain.Host

/-!
# Properties

A name refers to a property of the active context: a field of an object, a property of a host
object, or the length of a list or string, which is read-only.
-/

namespace DotChain.Property

variable {W : Type} [Host W]

/-- The length that a list or string has as a property. -/
def length? (heap : Heap) (value : Value) (name : String) : Option Nat :=
  match value with
  | .list id => if name = "size" then some (heap.items id).length else none
  | .text text => if name = "length" then some text.length else none
  | _ => none

/-- The value of a property of the active context. -/
def evaluate (name : String) (span : Span) : Eval W TypedValue := do
  let state ← get
  let context := state.current.value
  let missing := Fault.propertyNotFound name (state.heap.typeName context)
  match context with
  | .null => Eval.fault (.nullContext s!"read property '{name}'") span
  | .object id => Eval.orFault ((state.heap.field? id name).map state.heap.typedField) missing span
  | .host id =>
    let value ← Eval.orFault (← Eval.host (Host.read id name)) missing span
    return (← get).heap.typed value
  | other =>
    let length ← Eval.orFault (length? state.heap other name) missing span
    return state.heap.typed (.ofLength length)

/-- Stores a value in a property of the active context. An object without the property gets it. -/
def assign (name : String) (span : Span) (value : TypedValue) : Eval W Unit := do
  let state ← get
  let context := state.current.value
  let typeName := state.heap.typeName context
  let readOnly := Fault.readOnlyProperty name typeName
  match context with
  | .null => Eval.fault (.nullContext s!"write property '{name}'") span
  | .object id =>
    let heap ← Eval.orFault (state.heap.write? id name value.value) readOnly span
    set (state.withHeap heap)
  | .host id =>
    unless ← Eval.host (Host.write id name value.value) do
      Eval.fault readOnly span
  | other =>
    if (length? state.heap other name).isSome then Eval.fault readOnly span
    else Eval.fault (.propertyNotFound name typeName) span

/-- Whether a property of the active context may be written. -/
def isAssignable (name : String) : Eval W Bool := do
  let state ← get
  match state.current.value with
  | .object id => return state.heap.isWritable id name
  | .host id => Eval.host (Host.canWrite id name)
  | _ => return false

end DotChain.Property
