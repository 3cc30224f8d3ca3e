import DotChain.Failure
import DotChain.Heap.Basic

/-!
# The state of an evaluation

An evaluation has a root value, named bindings and a stack of active contexts: the values that
properties, methods and indices refer to. It counts what it does. A computation may fail, and the
state that it has reached outlives the failure; a scope restores the stack on either way out.
-/

namespace DotChain

/-- Which errors in a chain are moved to the failing segment. -/
inductive PositionPolicy where
  /-- Only errors of reading. -/
  | readPathOnly
  /-- Errors of reading, of writing and of asking whether writing is possible. -/
  | readAndWrite
deriving DecidableEq

/-- How expressions are evaluated. -/
structure Config where
  /-- The greatest depth to which nodes may nest, if there is one. -/
  limit : Option Nat
  positions : PositionPolicy
deriving DecidableEq

/-- Nodes nest at most 512 deep, and only errors of reading are moved. -/
def Config.standard : Config := ⟨some 512, .readPathOnly⟩

/-- Whether errors of writing are moved to the failing segment. -/
def Config.correctsWrites (config : Config) : Bool := config.positions == .readAndWrite

/-- What an evaluation has done so far. The first three counts wrap at 2^64. -/
structure Counters where
  nodes : UInt64
  pushes : UInt64
  pops : UInt64
  maxDepth : Nat
deriving DecidableEq

/-- Nothing done yet. -/
def Counters.zero : Counters := ⟨0, 0, 0, 0⟩

/-- What all evaluations share: the heap and the world of the embedding application. -/
structure Store (W : Type) where
  heap : Heap
  world : W

/-- The state of an evaluation in an application whose world is a `W`. -/
structure State (W : Type) where
  root : TypedValue
  bindings : Table TypedValue
  /-- The active contexts, innermost first. -/
  contexts : List TypedValue
  /-- How deep nodes are nested at present. -/
  depth : Nat
  config : Config
  counters : Counters
  store : Store W

/-- A computation on the state of an evaluation. -/
abbrev Eval (W : Type) (α : Type) := ExceptT Failure (StateM (State W)) α

namespace State

variable {W : Type}

/-- The state in which an evaluation begins. -/
def initial (root : TypedValue) (config : Config) (store : Store W) : State W :=
  ⟨root, .empty, [], 0, config, .zero, store⟩

/-- The innermost active context; the root, if there is none. -/
def current (state : State W) : TypedValue := state.contexts.head?.getD state.root

/-- The heap as it is now. -/
def heap (state : State W) : Heap := state.store.heap

/-- The same state with another heap. -/
def withHeap (state : State W) (heap : Heap) : State W :=
  { state with store := { state.store with heap := heap } }

/-- Binds a value to a name. -/
def bind (state : State W) (name : String) (value : TypedValue) : State W :=
  { state with bindings := state.bindings.insert name value }

/-- Makes a value the active context. -/
def push (state : State W) (value : TypedValue) : State W :=
  { state with
    contexts := value :: state.contexts
    counters := { state.counters with
      pushes := state.counters.pushes + 1
      maxDepth := max state.counters.maxDepth (state.contexts.length + 1) } }

/-- Removes the innermost active context, if there is one. -/
def pop? (state : State W) : Option (TypedValue × State W) :=
  match state.contexts with
  | [] => none
  | value :: rest =>
    some (value, { state with
      contexts := rest
      counters := { state.counters with pops := state.counters.pops + 1 } })

/-- Removes active contexts until a given number of them is left. -/
def cut (state : State W) (depth : Nat) : State W :=
  let excess := state.contexts.length - depth
  { state with
    contexts := state.contexts.drop excess
    counters := { state.counters with pops := state.counters.pops + UInt64.ofNat excess } }

/-- Enters a node. -/
def enter (state : State W) : State W :=
  { state with
    depth := state.depth + 1
    counters := { state.counters with nodes := state.counters.nodes + 1 } }

/-- Leaves a node. -/
def leave (state : State W) : State W := { state with depth := state.depth - 1 }

@[simp] theorem current_push (state : State W) (value : TypedValue) :
    (state.push value).current = value := rfl

/-- What was made the active context is removed first. -/
theorem pop?_push (state : State W) (value : TypedValue) :
    ((state.push value).pop?).map (fun popped => (popped.1, popped.2.contexts)) =
      some (value, state.contexts) := rfl

/-- Cutting leaves the oldest contexts. -/
theorem contexts_cut (state : State W) (newer older : List TypedValue)
    (split : state.contexts = newer ++ older) : (state.cut older.length).contexts = older := by
  simp [cut, split]

/-- Each context that is cut off counts as removed. -/
theorem pops_cut (state : State W) (newer older : List TypedValue)
    (split : state.contexts = newer ++ older) :
    (state.cut older.length).counters.pops = state.counters.pops + UInt64.ofNat newer.length := by
  simp [cut, split]

/-- Whether nodes are nested as deep as they may be; if so, how deep that is. -/
def exhausted? (state : State W) : Option Nat :=
  match state.config.limit with
  | some limit => if limit ≤ state.depth then some limit else none
  | none => none

end State

namespace Eval

variable {W α : Type}

/-- A computation as a function of the state. -/
def mk (f : State W → Except Failure α × State W) : Eval W α := ExceptT.mk fun state => f state

/-- The outcome of a computation and the state that it leaves. -/
def outcome (action : Eval W α) (state : State W) : Except Failure α × State W :=
  (ExceptT.run action).run state

/-- Fails because of a fault at a place. -/
def fault (fault : Fault) (span : Span) : Eval W α := throw (.fault fault span)

/-- The value of an option, or a fault at a place. -/
def orFault (found : Option α) (fault : Fault) (span : Span) : Eval W α :=
  match found with
  | some value => pure value
  | none => Eval.fault fault span

/-- Runs a computation with a value as active context. However it ends, no more contexts are left
than there were before. -/
def inScope (value : TypedValue) (body : Eval W α) : Eval W α := mk fun state =>
  let (result, final) := body.outcome (state.push value)
  (result, final.cut state.contexts.length)

/-- Runs a computation inside a node, unless nodes are nested too deep already. However it ends, the
node is left. -/
def inNode (span : Span) (body : Eval W α) : Eval W α := mk fun state =>
  match state.exhausted? with
  | some limit => (.error (.fault (.recursionLimit limit) span), state)
  | none =>
    let (result, final) := body.outcome state.enter
    (result, final.leave)

/-- Moves the error of a computation to a place, if asked to. -/
def positioned (correct : Bool) (span : Span) (body : Eval W α) : Eval W α := mk fun state =>
  match body.outcome state with
  | (.error failure, final) => (.error (if correct then failure.movedTo span else failure), final)
  | result => result

/-- Removes the innermost active context. -/
def popContext : Eval W TypedValue := mk fun state =>
  match state.pop? with
  | some (value, rest) => (.ok value, rest)
  | none => (.error (.host .contextUnderflow), state)

end Eval

end DotChain
