import DotChain.Literal

/-!
# Values

Scalars are values in themselves. A list, an object or a host object is a handle: values with the
same handle share one content, which the heap holds.
-/

namespace DotChain

/-- The handle of a list. -/
structure ListId where
  index : Nat
deriving DecidableEq, Inhabited

/-- The handle of an object. -/
structure ObjectId where
  index : Nat
deriving DecidableEq, Inhabited

/-- The handle of an object that the embedding application implements. -/
structure HostId where
  index : Nat
deriving DecidableEq, Inhabited

/-- A value. Two values are identical when they are the same scalar or the same handle. -/
inductive Value where
  | null
  | bool (value : Bool)
  | int (value : Int64)
  | float (value : Binary64)
  | text (value : String)
  | list (id : ListId)
  | object (id : ObjectId)
  | host (id : HostId)
deriving DecidableEq, Inhabited

/-- The type that a value was declared with or that is inferred from it. -/
inductive StaticType where
  | null
  | bool
  | int
  | float
  | text
  | list
  | object
  /-- The type of an object or host object that has a name of its own. -/
  | named (name : String)
deriving DecidableEq, Inhabited

/-- The name of a type. -/
def StaticType.describe : StaticType → String
  | null => "null"
  | bool => "bool"
  | int => "int"
  | float => "float"
  | text => "string"
  | list => "list"
  | object => "object"
  | named name => name

/-- A value and its type. -/
structure TypedValue where
  value : Value
  type : StaticType
deriving DecidableEq, Inhabited

/-- The null value. -/
def TypedValue.null : TypedValue := ⟨.null, .null⟩

/-- Whether a value is null. -/
def Value.isNull (value : Value) : Bool := value == .null

/-- The value of a literal, with its type. -/
def Literal.typed : Literal → TypedValue
  | .null => .null
  | .bool value => ⟨.bool value, .bool⟩
  | .int value => ⟨.int value, .int⟩
  | .float value => ⟨.float value, .float⟩
  | .text value => ⟨.text value, .text⟩

/-- A length as an integer; a length past the greatest integer is written as that. -/
def lengthInt (length : Nat) : Int64 :=
  if length ≤ Int64.maxValue.toInt.toNat then Int64.ofNat length else Int64.maxValue

/-- A length as an integer value. -/
def Value.ofLength (length : Nat) : Value := .int (lengthInt length)

/-- A length that is an integer is written as that. -/
theorem lengthInt_eq {length : Nat} {whole : Int64} (same : whole.toInt = length) : lengthInt length = whole := by
  have greatest := whole.toInt_le
  have bound : Int64.maxValue.toInt = 9223372036854775807 := rfl
  rw [lengthInt, if_pos (by omega), ← Int64.toInt_inj, Int64.toInt_ofNat_of_lt (by omega), same]

/-- The position that an integer denotes in a sequence of a given length, if it denotes one. -/
def slot? (index : Int64) (length : Nat) : Option Nat :=
  if 0 ≤ index.toInt ∧ index.toInt < length then some index.toInt.toNat else none

theorem slot?_eq_some_iff {index : Int64} {length position : Nat} :
    slot? index length = some position ↔ index.toInt = position ∧ position < length := by
  unfold slot?
  split
  · simp only [Option.some.injEq]; omega
  · simp only [reduceCtorEq, false_iff]; omega

theorem slot?_eq_none_iff {index : Int64} {length : Nat} :
    slot? index length = none ↔ ¬ (0 ≤ index.toInt ∧ index.toInt < length) := by
  unfold slot?
  split <;> simp_all

end DotChain
