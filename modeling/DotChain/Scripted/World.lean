import DotChain.Host
import DotChain.Table

/-!
# Scripted applications

An application whose objects answer from tables, for trying expressions without a real one. It also
keeps a journal of what scripted segments were asked to do.
-/

namespace DotChain.Scripted

/-- What a method answers. -/
inductive Reply where
  /-- The number of arguments. -/
  | count
  /-- A new list of the arguments. -/
  | list
  /-- The last argument; null, if there is none. -/
  | last
  /-- How often methods of the object were asked for this. -/
  | bump
deriving DecidableEq

/-- An object: what it has and how it answers. -/
structure Script where
  typeName : String
  properties : Table Value
  /-- The properties that may be written; writing adds one that is absent. -/
  writable : List String
  /-- The names for which every operation fails with an error of the object. -/
  failing : List String
  /-- The names for which every operation fails with an error in words of its own. -/
  refusing : List String
  methods : Table Reply
  /-- How often a method has answered with its count of calls. -/
  bumps : Int64
deriving Inhabited

/-- An object of which only the properties are known, and none may be written. -/
def Script.plain (typeName : String) (properties : Table Value) : Script :=
  ⟨typeName, properties, [], [], [], .empty, 0⟩

/-- The scripted objects, by their handles, and the journal. -/
structure World where
  scripts : Array Script
  journal : List (List String)

namespace World

/-- No objects and an empty journal. -/
def empty : World := ⟨#[], []⟩

/-- The script of an object. -/
def script (world : World) (id : HostId) : Script := (world.scripts[id.index]?).getD default

/-- Changes the script of an object. -/
def change (world : World) (id : HostId) (change : Script → Script) : World :=
  { world with scripts := world.scripts.modify id.index change }

/-- Adds an entry to the journal. -/
def note (world : World) (entry : List String) : World :=
  { world with journal := world.journal ++ [entry] }

end World

/-- Gives out the handle of a new scripted object, shown in outlines as given. -/
def add (store : Store World) (script : Script) (outline : String) : HostId × Store World :=
  let (id, heap) := store.heap.newHost ⟨script.typeName, outline⟩
  (id, ⟨heap, { store.world with scripts := store.world.scripts.push script }⟩)

/-- The script of an object, unless the operation on the name fails. -/
def attempt (operation name : String) (id : HostId) : HostAction World Script := do
  let script := (← get).world.script id
  if script.failing.contains name then throw (.object script.typeName (operation ++ " " ++ name))
  else if script.refusing.contains name then throw (.other (operation ++ ": " ++ name ++ "!"))
  else return script

/-- Changes the script of an object in the world of a computation. -/
def alter (id : HostId) (change : Script → Script) : HostAction World Unit :=
  modify fun store => { store with world := store.world.change id change }

/-- The answer of a method. -/
def answer (id : HostId) (script : Script) (args : List Value) : Reply → HostAction World Value
  | .count => return .ofLength args.length
  | .list => modifyGet fun store =>
    let (list, heap) := store.heap.newList args
    (.list list, { store with heap := heap })
  | .last => return args.getLast?.getD .null
  | .bump => do
    let bumps := script.bumps + 1
    alter id fun script => { script with bumps := bumps }
    return .int bumps

instance : Host World where
  read id name := do
    let script ← attempt "read" name id
    return script.properties.get? name
  write id name value := do
    let script ← attempt "write" name id
    if script.writable.contains name then
      alter id fun script => { script with properties := script.properties.insert name value }
      return true
    else return false
  canWrite id name := do
    let script ← attempt "can_write" name id
    return script.writable.contains name
  invoke id name args := do
    let script ← attempt "invoke" name id
    match script.methods.get? name with
    | some reply => some <$> answer id script args reply
    | none => return none

end DotChain.Scripted
