import DotChain.Binary64.Basic
import DotChain.Table

/-!
# Documents

A document is a tree of scalars, arrays and objects. The members of an object stand in ascending
order of their names and no name occurs twice, which `Json.ofMembers` establishes.
-/

namespace DotChain

/-- A document, or a part of one. A number is an integer of 64 bits or a finite float. -/
inductive Json where
  | null
  | bool (value : Bool)
  | int (value : Int64)
  | float (value : Binary64)
  | text (value : String)
  | array (items : List Json)
  | object (members : List (String × Json))
deriving Inhabited

namespace Json

/-- The object of members in any order. Of members with the same name the last one counts. -/
def ofMembers (members : List (String × Json)) : Json :=
  .object (members.foldl (fun entries (name, value) => Entries.insert name value entries) [])

private theorem ascending_foldl (members : List (String × Json)) {entries : List (String × Json)}
    (ascending : Entries.Ascending entries) :
    Entries.Ascending
      (members.foldl (fun entries (name, value) => Entries.insert name value entries) entries) := by
  induction members generalizing entries with
  | nil => exact ascending
  | cons member members ih => exact ih ascending.insert

/-- Members in order make up an object as they are. -/
theorem ofMembers_of_ascending {members : List (String × Json)} (ascending : Entries.Ascending members) :
    ofMembers members = .object members :=
  congrArg Json.object (Entries.foldl_insert ascending)

/-- An object that is made of members has them in order. -/
theorem ofMembers_ascending {members entries : List (String × Json)}
    (made : ofMembers members = .object entries) : Entries.Ascending entries := by
  obtain rfl := Json.object.inj made
  exact ascending_foldl members .nil

end Json

end DotChain
