import DotChain.Host

/-!
# Indices

An index selects an item of a list, a character of a string, a field of an object or a property of
a host object. The key is evaluated with the root as active context.
-/

namespace DotChain.Indexer

variable {W : Type}

/-- The key of an index, given how it is evaluated. -/
def key (index : Eval W TypedValue) : Eval W Value := do
  let state ← get
  let typed ← Eval.inScope state.root index
  return typed.value

/-- What indexing asks for where it got something else. -/
def wrongKey (heap : Heap) (expected : String) (got : Value) : Fault :=
  .invalidIndex expected (heap.typeName got)

variable [Host W]

/-- What the key selects from the active context. -/
def evaluate (index : Eval W TypedValue) (span : Span) : Eval W TypedValue := do
  let target := (← get).current.value
  let key ← key index
  let heap := (← get).heap
  match target, key with
  | .null, _ => Eval.fault (.nullContext "index") span
  | .list id, .int i =>
    let items := heap.items id
    let item := (slot? i items.length).bind (items[·]?)
    Eval.orFault (item.map heap.typed) (.indexOutOfBounds i items.length) span
  | .text text, .int i =>
    let characters := text.toList
    let character := (slot? i characters.length).bind (characters[·]?)
    Eval.orFault (character.map fun c => heap.typed (.text (String.ofList [c])))
      (.indexOutOfBounds i characters.length) span
  | .list _, other => Eval.fault (wrongKey heap "an int" other) span
  | .text _, other => Eval.fault (wrongKey heap "an int" other) span
  | .object id, .text name =>
    Eval.orFault ((heap.field? id name).map heap.typedField)
      (.propertyNotFound name (heap.typeName target)) span
  | .host id, .text name =>
    let value ← Eval.orFault (← Eval.host (Host.read id name))
      (.propertyNotFound name (heap.typeName target)) span
    return (← get).heap.typed value
  | .object _, other => Eval.fault (wrongKey heap "a string" other) span
  | .host _, other => Eval.fault (wrongKey heap "a string" other) span
  | other, _ => Eval.fault (.cannotIndex (heap.typeName other)) span

/-- Stores a value where the key points in the active context. -/
def assign (index : Eval W TypedValue) (span : Span) (value : TypedValue) : Eval W Unit := do
  let target := (← get).current.value
  let key ← key index
  let state ← get
  let heap := state.heap
  match target, key with
  | .null, _ => Eval.fault (.nullContext "index") span
  | .list id, .int i =>
    let length := (heap.items id).length
    let changed := (slot? i length).bind (heap.replace? id · value.value)
    set (state.withHeap (← Eval.orFault changed (.indexOutOfBounds i length) span))
  | .list _, other => Eval.fault (wrongKey heap "an int" other) span
  | .object id, .text name =>
    let changed := heap.write? id name value.value
    set (state.withHeap
      (← Eval.orFault changed (.readOnlyProperty name (heap.typeName target)) span))
  | .host id, .text name =>
    unless ← Eval.host (Host.write id name value.value) do
      Eval.fault (.readOnlyProperty name (heap.typeName target)) span
  | .object _, other => Eval.fault (wrongKey heap "a string" other) span
  | .host _, other => Eval.fault (wrongKey heap "a string" other) span
  | other, _ => Eval.fault (.cannotIndex (heap.typeName other)) span

/-- Whether the key points to something in the active context that may be written. -/
def isAssignable (index : Eval W TypedValue) : Eval W Bool := do
  let target := (← get).current.value
  let key ← key index
  let heap := (← get).heap
  match target, key with
  | .list id, .int i => return (slot? i (heap.items id).length).isSome
  | .object id, .text name => return heap.isWritable id name
  | .host id, .text name => Eval.host (Host.canWrite id name)
  | _, _ => return false

end DotChain.Indexer
