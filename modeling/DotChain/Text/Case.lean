import DotChain.Text.CaseData

/-!
# Case mapping

Upper and lower case of whole texts. A character may map to several. The capital sigma is the one
letter whose lower case depends on its surroundings: it takes its final form at the end of a word.
-/

namespace DotChain.Text

/-- Whether a character lies in one of the ranges. -/
def inRanges (ranges : List (Nat × Nat)) (c : Char) : Bool :=
  ranges.any fun (first, last) => decide (first ≤ c.toNat) && decide (c.toNat ≤ last)

/-- Whether a character has case. -/
def isCased (c : Char) : Bool := inRanges casedRanges c

/-- Whether a character is passed over when the end of a word is looked for. -/
def isCaseIgnorable (c : Char) : Bool := inRanges ignorableRanges c

/-- Maps one character by its table of sequences, else by its table of runs, else to itself. -/
def mapCase (sequences : List (Nat × List Nat)) (runs : List CaseRun) (c : Char) : List Char :=
  match sequences.lookup c.toNat with
  | some codes => codes.map Char.ofNat
  | none =>
    match runs.find? (·.contains c.toNat) with
    | some run => [Char.ofNat (c.toNat + run.shift).toNat]
    | none => [c]

/-- The upper case of a character. -/
def upperChar (c : Char) : List Char := mapCase upperSequences upperRuns c

/-- The lower case of a character that stands alone. -/
def lowerChar (c : Char) : List Char := mapCase lowerSequences lowerRuns c

/-- Whether the first character that is not passed over has case. -/
def meetsCased (text : List Char) : Bool :=
  match text.dropWhile isCaseIgnorable with
  | [] => false
  | c :: _ => isCased c

/-- The lower case of a text, where `before` is what precedes it, nearest character first. A capital
sigma after a cased character and before none takes its final form. -/
def lowerFrom (before : List Char) : List Char → List Char
  | [] => []
  | c :: rest =>
    (if c = 'Σ' then (if meetsCased before && !meetsCased rest then ['ς'] else ['σ'])
      else lowerChar c) ++ lowerFrom (c :: before) rest

/-- The upper case of a text. -/
def toUpper (text : String) : String := String.ofList (text.toList.flatMap upperChar)

/-- The lower case of a text. -/
def toLower (text : String) : String := String.ofList (lowerFrom [] text.toList)

end DotChain.Text
