import DotChain.Heap.Equality
import DotChain.Host
import DotChain.Text.Blank
import DotChain.Text.Case

/-!
# Methods

A method is called on the active context. Strings, lists and objects have methods of their own; a
host object decides about its methods itself. Arguments are evaluated from left to right with the
root as active context. The number of arguments is checked before their types.
-/

namespace DotChain.Method

/-- A result that takes no arguments. -/
def nullary (method : String) (args : List Value) (result : Value) : Except Fault Value :=
  match args with
  | [] => .ok result
  | _ => .error (.arityMismatch method "0" args.length)

/-- A result that depends on one argument. -/
def unary (method : String) (args : List Value) (result : Value → Except Fault Value) :
    Except Fault Value :=
  match args with
  | [arg] => result arg
  | _ => .error (.arityMismatch method "1" args.length)

/-- The integer that an argument must be. -/
def intArg (heap : Heap) (method : String) : Value → Except Fault Int64
  | .int n => .ok n
  | other => .error (.argumentType method "an int" (heap.typeName other))

/-- The characters of a text from one position up to another. The end may be the length. -/
def slice (text : List Char) (first last : Int64) : Except Fault (List Char) :=
  match slot? first (text.length + 1), slot? last (text.length + 1) with
  | none, _ => .error (.indexOutOfBounds first text.length)
  | some _, none => .error (.indexOutOfBounds last text.length)
  | some start, some stop =>
    if stop < start then .error (.indexOutOfBounds first stop)
    else .ok ((text.take stop).drop start)

/-- The two positions that `substring` is given. Where the second is left out, it is the length. -/
def sliceArgs (heap : Heap) (length : Nat) (args : List Value) : Except Fault (Int64 × Int64) :=
  let method := "substring"
  match args with
  | [first] => do return (← intArg heap method first, lengthInt length)
  | [first, last] => do return (← intArg heap method first, ← intArg heap method last)
  | _ => .error (.arityMismatch method "1 or 2" args.length)

/-- The part of a text from a position, up to another or up to the end. -/
def substring (heap : Heap) (text : String) (args : List Value) : Except Fault Value := do
  let characters := text.toList
  let (first, last) ← sliceArgs heap characters.length args
  return .text (String.ofList (← slice characters first last))

/-- Methods of strings. -/
def ofText (heap : Heap) (text method : String) (args : List Value) : Except Fault Value :=
  match method with
  | "length" => nullary method args (.ofLength text.length)
  | "toUpperCase" => nullary method args (.text (Text.toUpper text))
  | "toLowerCase" => nullary method args (.text (Text.toLower text))
  | "isEmpty" => nullary method args (.bool text.isEmpty)
  | "trim" => nullary method args (.text (String.ofList (Text.trim text.toList)))
  | "substring" => substring heap text args
  | _ => .error (.methodNotFound method "string")

/-- Methods of lists. -/
def ofList (heap : Heap) (id : ListId) (method : String) (args : List Value) : Except Fault Value :=
  let items := heap.items id
  match method with
  | "size" => nullary method args (.ofLength items.length)
  | "isEmpty" => nullary method args (.bool items.isEmpty)
  | "get" => unary method args fun arg => do
    let i ← intArg heap method arg
    match (slot? i items.length).bind (items[·]?) with
    | some item => .ok item
    | none => .error (.indexOutOfBounds i items.length)
  | "contains" => unary method args fun arg => .ok (.bool (heap.listContains id arg))
  | _ => .error (.methodNotFound method "list")

/-- Methods of objects. -/
def ofObject (heap : Heap) (id : ObjectId) (method : String) (args : List Value) :
    Except Fault Value :=
  match method with
  | "size" => nullary method args (.ofLength (heap.object id).fields.size)
  | "containsKey" => unary method args fun
    | .text name => .ok (.bool ((heap.object id).fields.contains name))
    | other => .error (.argumentType method "a string" (heap.typeName other))
  | _ => .error (.methodNotFound method (heap.typeName (.object id)))

/-- Methods of everything but host objects. -/
def builtIn (heap : Heap) (target : Value) (method : String) (args : List Value) :
    Except Fault Value :=
  match target with
  | .null => .error (.nullContext s!"call method '{method}'")
  | .text text => ofText heap text method args
  | .list id => ofList heap id method args
  | .object id => ofObject heap id method args
  | other => .error (.methodNotFound method (heap.typeName other))

variable {W : Type}

/-- The values of several computations, one after the other. -/
def values : List (Eval W TypedValue) → Eval W (List Value)
  | [] => pure []
  | first :: rest => do
    let typed ← first
    let others ← values rest
    return typed.value :: others

/-- The values of the arguments, given how each is evaluated. Without any, no context is added. -/
def arguments (args : List (Eval W TypedValue)) : Eval W (List Value) :=
  if args.isEmpty then pure []
  else do
    let state ← get
    Eval.inScope state.root (values args)

/-- The result of a method of the active context. -/
def evaluate [Host W] (method : String) (args : List (Eval W TypedValue)) (span : Span) :
    Eval W TypedValue := do
  let target := (← get).current.value
  let args ← arguments args
  let heap := (← get).heap
  match target with
  | .host id =>
    let result ← Eval.orFault (← Eval.host (Host.invoke id method args))
      (.methodNotFound method (heap.typeName target)) span
    return (← get).heap.typed result
  | other =>
    match builtIn heap other method args with
    | .ok result => return heap.typed result
    | .error fault => Eval.fault fault span

end DotChain.Method
