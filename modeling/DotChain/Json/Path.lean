import DotChain.Json.Basic
import DotChain.Value

/-!
# Paths in documents

A path goes from a document down to one of its parts, through members of objects and items of arrays.
At the end of a path a part can be put in place of another, and a member that is absent can be added.
Main statements: `put?_iff_leads`, a part can be put exactly where the path leads, `at?_put?`, it is
found there afterwards, and `at?_put?_apart`, what other steps lead to stays as it is.
-/

namespace DotChain

/-- The document of a literal. What is no finite number is null. -/
def Literal.document : Literal → Json
  | .null => .null
  | .bool value => .bool value
  | .int value => .int value
  | .float value => if value.isFinite then .float value else .null
  | .text value => .text value

namespace Path

/-- One step of a path: to a member, whose name may stand in quotes between brackets, or to an item. -/
inductive Step where
  | member (name : String) (quoted : Bool)
  | item (index : Int64)

namespace Step

/-- The part of a document to which a step leads. -/
def find? : Step → Json → Option Json
  | member name _, .object members => Entries.get? name members
  | item index, .array items => (slot? index items.length).bind fun position => items[position]?
  | _, _ => none

/-- Whether a part can be put where a step leads: under any name in an object, in place of an item in
an array. -/
def Fits : Step → Json → Prop
  | member _ _, .object _ => True
  | item index, .array items => 0 ≤ index.toInt ∧ index.toInt < items.length
  | _, _ => False

/-- The document with a part put where a step leads. -/
def put? (part : Json) : Step → Json → Option Json
  | member name _, .object members => some (.object (Entries.insert name part members))
  | item index, .array items =>
    (slot? index items.length).map fun position => .array (items.set position part)
  | _, _ => none

/-- Whether two steps lead to the same part of a document, if they lead to any. -/
def Same : Step → Step → Prop
  | member name _, member other _ => name = other
  | item index, item other => index = other
  | _, _ => False

theorem put?_iff_fits (part : Json) (step : Step) (document : Json) :
    (step.put? part document).isSome ↔ step.Fits document := by
  cases step <;> cases document <;> simp [put?, Fits]
  case item.array index items =>
    constructor
    · intro found
      obtain ⟨position, there⟩ := Option.isSome_iff_exists.mp found
      obtain ⟨same, inside⟩ := slot?_eq_some_iff.mp there
      omega
    · intro inside
      exact Option.isSome_iff_exists.mpr ⟨index.toInt.toNat, slot?_eq_some_iff.mpr (by omega)⟩

/-- A part can be put wherever there is one. -/
theorem fits_of_find? {step : Step} {document part : Json} (found : step.find? document = some part) :
    step.Fits document := by
  cases step <;> cases document <;> simp only [find?, Fits, reduceCtorEq] at found ⊢
  case item.array index items =>
    obtain ⟨position, there, _⟩ := Option.bind_eq_some_iff.mp found
    obtain ⟨same, inside⟩ := slot?_eq_some_iff.mp there
    omega

/-- What was put is found. -/
theorem find?_put? {step : Step} {part document updated : Json}
    (put : step.put? part document = some updated) : step.find? updated = some part := by
  cases step <;> cases document <;> simp only [put?, reduceCtorEq, Option.some.injEq] at put
  case member.object name quoted members =>
    subst put
    simp [find?, Entries.get?_insert]
  case item.array index items =>
    obtain ⟨position, there, rfl⟩ := Option.map_eq_some_iff.mp put
    have inside := (slot?_eq_some_iff.mp there).2
    simp [find?, there, inside]

/-- Other steps find what they found. -/
theorem find?_put?_apart {step other : Step} (apart : ¬ step.Same other) {part document updated : Json}
    (put : step.put? part document = some updated) : other.find? updated = other.find? document := by
  cases step <;> cases document <;> simp only [put?, reduceCtorEq, Option.some.injEq] at put
  case member.object name quoted members =>
    subst put
    cases other with
    | member other quoted' =>
      have different : name ≠ other := apart
      simp only [find?, Entries.get?_insert, if_neg different]
    | item index => rfl
  case item.array index items =>
    obtain ⟨position, there, rfl⟩ := Option.map_eq_some_iff.mp put
    cases other with
    | member name quoted => rfl
    | item other =>
      simp only [find?, List.length_set]
      refine Option.bind_congr fun position' there' => ?_
      have same := (slot?_eq_some_iff.mp there).1
      have same' := (slot?_eq_some_iff.mp there').1
      have different : position ≠ position' := fun equal =>
        apart (Int64.toInt_inj.mp (by rw [same, same', equal]))
      rw [List.getElem?_set_ne different]

end Step

/-- The part of a document to which steps lead. -/
def at? : List Step → Json → Option Json
  | [], document => some document
  | step :: rest, document => (step.find? document).bind (at? rest)

/-- The document with a part put where the last of several steps leads. -/
def putBelow? (part : Json) (last : Step) : List Step → Json → Option Json
  | [], document => last.put? part document
  | step :: rest, document => do
    let child ← step.find? document
    let changed ← putBelow? part last rest child
    step.put? changed document

end Path

/-- A path: at least one step. -/
structure Path where
  /-- All steps but the last. -/
  lead : List Path.Step
  last : Path.Step

namespace Path

/-- A path leads to a place in a document: up to the last step it leads to a part in which that step
fits. -/
def Leads (path : Path) (document : Json) : Prop :=
  ∃ parent, at? path.lead document = some parent ∧ path.last.Fits parent

/-- The document with a part put at the end of a path. -/
def put? (path : Path) (part document : Json) : Option Json :=
  putBelow? part path.last path.lead document

/-- The steps of a path. -/
def steps (path : Path) : List Step := path.lead ++ [path.last]

/-- Two lists of steps go the same way and then to different parts of a document. -/
def Apart (steps others : List Step) : Prop :=
  ∃ front step other rest rest', steps = front ++ step :: rest ∧ others = front ++ other :: rest' ∧
    ¬ step.Same other

theorem of_putBelow? {part : Json} {last step : Step} {rest : List Step} {document updated : Json}
    (put : putBelow? part last (step :: rest) document = some updated) :
    ∃ child changed, step.find? document = some child ∧ putBelow? part last rest child = some changed ∧
      step.put? changed document = some updated := by
  simp only [putBelow?, Option.bind_eq_bind, Option.bind_eq_some_iff] at put
  obtain ⟨child, found, changed, below, put⟩ := put
  exact ⟨child, changed, found, below, put⟩

theorem putBelow?_iff (part : Json) (last : Step) (lead : List Step) (document : Json) :
    (putBelow? part last lead document).isSome ↔
      ∃ parent, at? lead document = some parent ∧ last.Fits parent := by
  induction lead generalizing document with
  | nil => simp [putBelow?, at?, Step.put?_iff_fits]
  | cons step rest ih =>
    cases found : step.find? document with
    | none => simp [putBelow?, at?, found]
    | some child =>
      have inside := Step.fits_of_find? found
      have below := ih child
      simp only [at?, found, Option.bind_some, ← below]
      cases put : putBelow? part last rest child with
      | none => simp [putBelow?, found, put]
      | some changed =>
        simpa [putBelow?, found, put] using (Step.put?_iff_fits changed step document).mpr inside

theorem put?_iff_leads (path : Path) (part document : Json) :
    (path.put? part document).isSome ↔ path.Leads document :=
  putBelow?_iff part path.last path.lead document

/-- What was put is found at the end of the path. -/
theorem at?_put? {path : Path} {part document updated : Json}
    (put : path.put? part document = some updated) : at? path.steps updated = some part := by
  obtain ⟨lead, last⟩ := path
  simp only [put?, steps] at put ⊢
  induction lead generalizing document updated with
  | nil => simp [at?, Step.find?_put? put]
  | cons step rest ih =>
    obtain ⟨child, changed, _, below, put⟩ := of_putBelow? put
    rw [List.cons_append, at?, Step.find?_put? put]
    exact ih below

/-- What other steps lead to stays as it is. -/
theorem at?_put?_apart {path : Path} {others : List Step} (apart : Apart path.steps others)
    {part document updated : Json} (put : path.put? part document = some updated) :
    at? others updated = at? others document := by
  obtain ⟨lead, last⟩ := path
  obtain ⟨front, step, other, rest, rest', way, rfl, different⟩ := apart
  simp only [put?, steps] at put way
  induction front generalizing lead document updated with
  | nil =>
    cases lead with
    | nil =>
      obtain rfl := (List.cons.inj way).1
      simp only [List.nil_append, at?, Step.find?_put?_apart different put]
    | cons first lead =>
      obtain rfl := (List.cons.inj way).1
      obtain ⟨child, changed, _, _, put⟩ := of_putBelow? put
      simp only [List.nil_append, at?, Step.find?_put?_apart different put]
  | cons first front ih =>
    cases lead with
    | nil => simp at way
    | cons step lead =>
      obtain ⟨rfl, same⟩ := List.cons.inj way
      obtain ⟨child, changed, found, below, put⟩ := of_putBelow? put
      rw [List.cons_append, at?, at?, Step.find?_put? put, found]
      exact ih lead below same

end Path

end DotChain
