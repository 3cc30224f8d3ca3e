import DotChain.State

/-!
# The embedding application

An application gives objects of its own to expressions. What happens when an expression reaches one
is up to the application, which may change its world and the heap, and may fail.
-/

namespace DotChain

/-- A computation of the application. -/
abbrev HostAction (W : Type) (α : Type) := ExceptT HostError (StateM (Store W)) α

/-- What an application does with its objects. -/
class Host (W : Type) where
  /-- The value of a property, if there is such a property. -/
  read : HostId → String → HostAction W (Option Value)
  /-- Stores a value in a property; false, if it is read-only. -/
  write : HostId → String → Value → HostAction W Bool
  /-- Whether a property may be written. -/
  canWrite : HostId → String → HostAction W Bool
  /-- The result of a method, if there is such a method. -/
  invoke : HostId → String → List Value → HostAction W (Option Value)

/-- The application that has no objects. -/
instance : Host Unit where
  read _ _ := pure none
  write _ _ _ := pure false
  canWrite _ _ := pure false
  invoke _ _ _ := pure none

/-- Lets the application act. Its errors pass through untouched. -/
def Eval.host {W α : Type} (action : HostAction W α) : Eval W α := Eval.mk fun state =>
  let (result, store) := (ExceptT.run action).run state.store
  (result.mapError .host, { state with store := store })

end DotChain
