/-!
# Tables

A table assigns values to names. Its entries stand in ascending order of their names, by code
point, and no name occurs twice, so two tables with the same contents are the same table.
Main statement: `get?_insert`.
-/

namespace DotChain

namespace Entries

/-- Puts a value under a name into a list of entries, in front of the first greater name. -/
def insert {α : Type} (name : String) (value : α) : List (String × α) → List (String × α)
  | [] => [(name, value)]
  | (key, old) :: rest =>
    if name < key then (name, value) :: (key, old) :: rest
    else if name = key then (name, value) :: rest
    else (key, old) :: insert name value rest

/-- Names ascend strictly. -/
def Ascending {α : Type} (entries : List (String × α)) : Prop :=
  entries.Pairwise (fun left right => left.1 < right.1)

private theorem after_of_not_before {name key : String} (before : ¬ name < key)
    (other : name ≠ key) : key < name := by
  rcases String.le_total name key with le | le
  · exact absurd (String.le_antisymm le (String.not_lt.mp before)) other
  · exact String.not_le.mp fun ge => other (String.le_antisymm ge le)

private theorem not_before {name key : String} (after : key < name) : ¬ name < key :=
  fun before => String.lt_irrefl _ (String.lt_trans before after)

theorem mem_insert {α : Type} {name : String} {value : α} {entries : List (String × α)}
    {entry : String × α} (member : entry ∈ insert name value entries) :
    entry = (name, value) ∨ entry ∈ entries := by
  induction entries with
  | nil => simpa [insert] using member
  | cons first rest ih =>
    obtain ⟨key, old⟩ := first
    unfold insert at member
    split at member
    · simpa using member
    · split at member
      · rcases List.mem_cons.mp member with h | h
        · exact .inl h
        · exact .inr (List.mem_cons_of_mem _ h)
      · rcases List.mem_cons.mp member with h | h
        · exact .inr (h ▸ List.mem_cons_self)
        · exact (ih h).imp id (List.mem_cons_of_mem _)

theorem Ascending.insert {α : Type} {name : String} {value : α} {entries : List (String × α)}
    (ascending : Ascending entries) : Ascending (insert name value entries) := by
  induction entries with
  | nil => simp [Ascending, Entries.insert]
  | cons first rest ih =>
    obtain ⟨key, old⟩ := first
    have ⟨below, tail⟩ := List.pairwise_cons.mp ascending
    unfold Entries.insert
    split
    · next before =>
      refine List.pairwise_cons.mpr ⟨fun entry member => ?_, ascending⟩
      rcases List.mem_cons.mp member with rfl | h
      · exact before
      · exact String.lt_trans before (below entry h)
    · split
      · next same => exact List.pairwise_cons.mpr ⟨fun entry h => same ▸ below entry h, tail⟩
      · next before other =>
        refine List.pairwise_cons.mpr ⟨fun entry member => ?_, ih tail⟩
        rcases mem_insert member with rfl | h
        · exact after_of_not_before before other
        · exact below entry h

/-- The value under a name. -/
def get? {α : Type} (name : String) : List (String × α) → Option α
  | [] => none
  | (key, value) :: rest => if key = name then some value else get? name rest

/-- An insertion is seen under its own name and nowhere else. -/
theorem get?_insert {α : Type} (name other : String) (value : α) (entries : List (String × α)) :
    get? other (insert name value entries) = if name = other then some value else get? other entries := by
  induction entries with
  | nil => simp [insert, get?]
  | cons first rest ih =>
    obtain ⟨key, old⟩ := first
    unfold insert
    split
    · simp [get?]
    · split
      · next same => subst same; by_cases h : name = other <;> simp [get?, h]
      · next different =>
        by_cases h : key = other
        · subst h; simp [get?, different]
        · simp [get?, h, ih]

/-- The entries with every value replaced by its image. -/
def mapValues {α β : Type} (f : α → β) (entries : List (String × α)) : List (String × β) :=
  entries.map fun (key, value) => (key, f value)

@[simp] theorem mapValues_cons {α β : Type} (f : α → β) (key : String) (value : α)
    (entries : List (String × α)) :
    mapValues f ((key, value) :: entries) = (key, f value) :: mapValues f entries := rfl

@[simp] theorem mapValues_append {α β : Type} (f : α → β) (left right : List (String × α)) :
    mapValues f (left ++ right) = mapValues f left ++ mapValues f right :=
  List.map_append

theorem map_mapValues {α β γ : Type} (f : α → β) (g : String × β → γ) (entries : List (String × α)) :
    (mapValues f entries).map g = entries.map fun entry => g (entry.1, f entry.2) :=
  List.map_map

theorem mapValues_mapValues {α β γ : Type} (f : α → β) (g : β → γ) (entries : List (String × α)) :
    mapValues g (mapValues f entries) = mapValues (fun value => g (f value)) entries :=
  map_mapValues f _ entries

theorem mapValues_congr {α β : Type} {f g : α → β} {entries : List (String × α)}
    (same : ∀ entry ∈ entries, f entry.2 = g entry.2) : mapValues f entries = mapValues g entries :=
  List.map_congr_left fun entry member => congrArg (Prod.mk entry.1) (same entry member)

theorem ascending_mapValues {α β : Type} (f : α → β) {entries : List (String × α)} :
    Ascending (mapValues f entries) ↔ Ascending entries :=
  List.pairwise_map

/-- Values are found where their images are. -/
theorem get?_mapValues {α β : Type} (f : α → β) (name : String) (entries : List (String × α)) :
    get? name (mapValues f entries) = (get? name entries).map f := by
  induction entries with
  | nil => rfl
  | cons first rest ih =>
    obtain ⟨key, old⟩ := first
    by_cases same : key = name
    · simp [get?, same]
    · simp [get?, same, ih]

/-- Values are put where their images are. -/
theorem insert_mapValues {α β : Type} (f : α → β) (name : String) (value : α)
    (entries : List (String × α)) :
    insert name (f value) (mapValues f entries) = mapValues f (insert name value entries) := by
  induction entries with
  | nil => rfl
  | cons first rest ih =>
    obtain ⟨key, old⟩ := first
    by_cases before : name < key
    · simp [insert, before]
    · by_cases same : name = key
      · simp [insert, same]
      · simp [insert, before, same, ih]

/-- Where names ascend, every entry is the one that is found under its name. -/
theorem get?_of_mem {α : Type} {name : String} {value : α} {entries : List (String × α)}
    (ascending : Ascending entries) (member : (name, value) ∈ entries) :
    get? name entries = some value := by
  induction entries with
  | nil => cases member
  | cons first rest ih =>
    obtain ⟨key, old⟩ := first
    obtain ⟨below, tail⟩ := List.pairwise_cons.mp ascending
    rcases List.mem_cons.mp member with same | later
    · obtain ⟨rfl, rfl⟩ := Prod.mk.inj same
      exact if_pos rfl
    · have other : key ≠ name := fun same => String.lt_irrefl _ (same ▸ below _ later)
      exact (if_neg other).trans (ih tail later)

/-- An insertion takes the place of the entry under the same name, if there is one. -/
theorem insert_split {α : Type} (name : String) {entries : List (String × α)}
    (ascending : Ascending entries) :
    ∃ front olds back, entries = front ++ olds ++ back ∧
      olds = ((get? name entries).map (name, ·)).toList ∧
      ∀ value, insert name value entries = front ++ (name, value) :: back := by
  induction entries with
  | nil => exact ⟨[], [], [], rfl, rfl, fun _ => rfl⟩
  | cons first rest ih =>
    obtain ⟨key, old⟩ := first
    obtain ⟨below, tail⟩ := List.pairwise_cons.mp ascending
    obtain ⟨front, olds, back, whole, olds_eq, inserted⟩ := ih tail
    by_cases same : key = name
    · subst same
      exact ⟨[], [(key, old)], rest, rfl, by simp [get?], fun value => by simp [insert]⟩
    · have found : get? name ((key, old) :: rest) = get? name rest := if_neg same
      by_cases before : name < key
      · -- the names behind are greater still
        have absent : get? name rest = none := by
          cases there : get? name rest with
          | none => rfl
          | some later =>
            rw [there] at olds_eq
            have member : (name, later) ∈ rest := by simp [whole, olds_eq]
            exact absurd (below _ member) (not_before before)
        exact ⟨[], [], (key, old) :: rest, rfl, by simp [found, absent],
          fun value => by simp [insert, before]⟩
      · refine ⟨(key, old) :: front, olds, back, by simp [whole], by rw [found, olds_eq], fun value => ?_⟩
        rw [insert, if_neg before, if_neg (Ne.symm same), inserted]
        rfl

/-- An insertion under the greatest name goes to the end. -/
theorem insert_last {α : Type} {name : String} (value : α) {entries : List (String × α)}
    (greatest : ∀ entry ∈ entries, entry.1 < name) :
    insert name value entries = entries ++ [(name, value)] := by
  induction entries with
  | nil => rfl
  | cons first rest ih =>
    obtain ⟨key, old⟩ := first
    obtain ⟨below, others⟩ := List.forall_mem_cons.mp greatest
    have before : ¬ name < key := not_before below
    have other : name ≠ key := fun same => String.lt_irrefl _ (same ▸ below)
    rw [insert, if_neg before, if_neg other, ih others]
    rfl

/-- Entries that are put behind lesser ones in their order stay in that order. -/
theorem foldl_insert {α : Type} {entries more : List (String × α)} (ascending : Ascending (entries ++ more)) :
    more.foldl (fun entries (name, value) => insert name value entries) entries = entries ++ more := by
  induction more generalizing entries with
  | nil => exact (List.append_nil _).symm
  | cons entry rest ih =>
    obtain ⟨name, value⟩ := entry
    have greatest : ∀ other ∈ entries, other.1 < name := fun other member =>
      (List.pairwise_append.mp ascending).2.2 other member (name, value) List.mem_cons_self
    have last := insert_last value greatest
    rw [List.append_cons, ← last] at ascending ⊢
    exact ih ascending

end Entries

/-- Values under distinct names, in ascending order of the names. -/
structure Table (α : Type) where
  entries : List (String × α)
  ascending : Entries.Ascending entries

namespace Table

variable {α : Type}

/-- The table without entries. -/
def empty : Table α := ⟨[], .nil⟩

instance : Inhabited (Table α) := ⟨empty⟩

/-- The value under a name. -/
def get? (table : Table α) (name : String) : Option α := Entries.get? name table.entries

/-- Puts a value under a name, in place of an earlier one. -/
def insert (table : Table α) (name : String) (value : α) : Table α :=
  ⟨Entries.insert name value table.entries, table.ascending.insert⟩

/-- The table of entries in any order. Of entries with the same name the last one counts. -/
def ofList (entries : List (String × α)) : Table α :=
  entries.foldl (fun table (name, value) => table.insert name value) empty

/-- Whether a name has a value. -/
def contains (table : Table α) (name : String) : Bool := (table.get? name).isSome

/-- The names, in order. -/
def names (table : Table α) : List String := table.entries.map Prod.fst

/-- The number of entries. -/
def size (table : Table α) : Nat := table.entries.length

@[simp] theorem get?_empty (name : String) : (empty : Table α).get? name = none := rfl

theorem get?_insert (table : Table α) (name other : String) (value : α) :
    (table.insert name value).get? other = if name = other then some value else table.get? other :=
  Entries.get?_insert name other value table.entries

private theorem entries_foldl (entries : List (String × α)) (table : Table α) :
    (entries.foldl (fun table (name, value) => table.insert name value) table).entries =
      entries.foldl (fun entries (name, value) => Entries.insert name value entries) table.entries := by
  induction entries generalizing table with
  | nil => rfl
  | cons entry rest ih => exact ih (table.insert entry.1 entry.2)

/-- Entries that are in order stay as they are. -/
theorem entries_ofList {entries : List (String × α)} (ascending : Entries.Ascending entries) :
    (ofList entries).entries = entries := by
  rw [ofList, entries_foldl]
  exact Entries.foldl_insert ascending

end Table

end DotChain
