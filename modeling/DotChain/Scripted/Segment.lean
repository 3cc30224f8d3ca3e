import DotChain.Heap.Display
import DotChain.Node
import DotChain.Scripted.World

/-!
# Scripted segments

A segment that does what it is told, whatever the context: it may remove and add active contexts and
leave them so, and it may fail. Every operation is entered in the journal together with the active
context that it saw.
-/

namespace DotChain.Scripted

/-- How the operations of a segment end. -/
inductive Ending where
  | value (result : TypedValue)
  | failure (cause : Failure)

/-- A segment and what its operations do. -/
structure Segment where
  text : String
  span : Span
  /-- How many active contexts are removed first. -/
  pops : Nat
  /-- The values that are then made active contexts, one after the other. -/
  pushes : List TypedValue
  ending : Ending
  /-- Whether the segment says that it is not assignable. -/
  readOnly : Bool

/-- Adds an entry to the journal. -/
def record (entry : List String) : Eval World Unit :=
  modify fun state =>
    { state with store := { state.store with world := state.store.world.note entry } }

namespace Segment

/-- Removes a number of active contexts. -/
def popMany : Nat → Eval World Unit
  | 0 => pure ()
  | count + 1 => do
    let _ ← Eval.popContext
    popMany count

/-- What every operation does before it ends in its own way; the result is the segment's value. -/
def perform (segment : Segment) (operation : String) : Eval World TypedValue := do
  let state ← get
  record [segment.text, operation, state.heap.display state.current.value]
  popMany segment.pops
  modify fun state => segment.pushes.foldl State.push state
  match segment.ending with
  | .value result => return result
  | .failure cause => throw cause

/-- A scripted segment as a node. -/
def node (segment : Segment) : Node World where
  span := segment.span
  evaluate := segment.perform "evaluate"
  assign value := do
    let _ ← segment.perform "assign"
    record [segment.text, "assigned", (← get).heap.display value.value]
  isAssignable := do
    let _ ← segment.perform "is_assignable"
    return !segment.readOnly

end Segment

end DotChain.Scripted
