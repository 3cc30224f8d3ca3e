import DotChain.Json.Reader

/-!
# Documents that are read

The members of every object in a document that was read stand in ascending order of their names. Main
statement: `ordered_of_read?`.
-/

namespace DotChain.Json

/-! ## What a document holds -/

/-- A document without parts. -/
def isFlat : Json → Bool
  | array _ | object _ => false
  | _ => true

mutual

/-- The floats in a document. -/
def floats : Json → List Binary64
  | float value => [value]
  | array items => floatsItems items
  | object members => floatsMembers members
  | _ => []

/-- The floats in items. -/
def floatsItems : List Json → List Binary64
  | [] => []
  | item :: rest => floats item ++ floatsItems rest

/-- The floats in members. -/
def floatsMembers : List (String × Json) → List Binary64
  | [] => []
  | (_, item) :: rest => floats item ++ floatsMembers rest

end

/-- The numbers of a document are integers or finite. -/
def IsFinite (document : Json) : Prop := ∀ x ∈ document.floats, x.isFinite = true

theorem isFinite_items {items : List Json} (finite : (array items).IsFinite) :
    ∀ item ∈ items, item.IsFinite := by
  induction items with
  | nil => exact fun item member => absurd member List.not_mem_nil
  | cons first rest ih =>
    obtain ⟨here, later⟩ := List.forall_mem_append.mp finite
    exact List.forall_mem_cons.mpr ⟨here, ih later⟩

theorem isFinite_members {members : List (String × Json)} (finite : (object members).IsFinite) :
    ∀ member ∈ members, member.2.IsFinite := by
  induction members with
  | nil => exact fun member among => absurd among List.not_mem_nil
  | cons first rest ih =>
    obtain ⟨here, later⟩ := List.forall_mem_append.mp finite
    exact List.forall_mem_cons.mpr ⟨here, ih later⟩

/-! ## Order -/

/-- The members of all objects in a document stand in order. -/
inductive Ordered : Json → Prop where
  | flat {document : Json} (flat : document.isFlat = true) : Ordered document
  | array {items : List Json} (inside : ∀ item ∈ items, Ordered item) : Ordered (.array items)
  | object {members : List (String × Json)} (ascending : Entries.Ascending members)
    (inside : ∀ member ∈ members, Ordered member.2) : Ordered (.object members)

private theorem mem_foldl_insert {members entries : List (String × Json)} {entry : String × Json}
    (member : entry ∈ members.foldl (fun entries (name, value) => Entries.insert name value entries) entries) :
    entry ∈ members ∨ entry ∈ entries := by
  induction members generalizing entries with
  | nil => exact .inr member
  | cons first rest ih =>
    rcases ih member with later | before
    · exact .inl (List.mem_cons_of_mem _ later)
    · rcases Entries.mem_insert before with rfl | before
      · exact .inl List.mem_cons_self
      · exact .inr before

/-- An object that is made of ordered documents is ordered. -/
theorem ordered_ofMembers {members : List (String × Json)}
    (inside : ∀ member ∈ members, Ordered member.2) : (ofMembers members).Ordered := by
  refine .object (ofMembers_ascending rfl) fun entry member => ?_
  rcases mem_foldl_insert member with given | none
  · exact inside entry given
  · cases none

namespace Reader

private theorem scalar_ordered {input : List Char} {document : Json}
    {rest : { rest : List Char // rest.length < input.length }}
    (read : scalar input = some (document, rest)) : document.Ordered := by
  refine .flat ?_
  unfold scalar at read
  split at read
  · cases read; rfl
  · cases read; rfl
  · cases read; rfl
  · split at read
    · cases read
    · cases read; rfl
  · unfold number at read
    split at read
    · cases read
    · obtain ⟨value, made, same⟩ := Option.map_eq_some_iff.mp read
      obtain ⟨rfl, _⟩ := Prod.mk.inj same
      unfold Numeral.number? at made
      split at made
      · cases made; rfl
      · obtain ⟨float, _, rfl⟩ := Option.map_eq_some_iff.mp made
        rfl

mutual

theorem value_ordered {room : Nat} {input : List Char} {document : Json}
    {rest : { rest : List Char // rest.length < input.length }}
    (read : value room input = some (document, rest)) : document.Ordered := by
  rw [value] at read
  split at read
  · cases read
  · next c after fits _ =>
    have less : after.length < input.length := fits
    split at read
    · split at read
      · cases read
      · next inner later shorter inside =>
        obtain ⟨rfl, _⟩ := Prod.mk.inj (Option.some.inj read)
        exact array_ordered inside
    · split at read
      · split at read
        · cases read
        · next inner later shorter inside =>
          obtain ⟨rfl, _⟩ := Prod.mk.inj (Option.some.inj read)
          exact object_ordered inside
      · split at read
        · cases read
        · next inner later shorter inside =>
          obtain ⟨rfl, _⟩ := Prod.mk.inj (Option.some.inj read)
          exact scalar_ordered inside
termination_by (input.length, 0)
decreasing_by all_goals omega

theorem array_ordered {room : Nat} {input : List Char} {document : Json}
    {rest : { rest : List Char // rest.length < input.length }}
    (read : array room input = some (document, rest)) : document.Ordered := by
  cases room with
  | zero =>
    rw [array] at read
    cases read
  | succ room =>
    rw [array] at read
    split at read
    · obtain ⟨rfl, _⟩ := Prod.mk.inj (Option.some.inj read)
      exact .array fun item member => absurd member List.not_mem_nil
    · split at read
      · cases read
      · next values later inside =>
        obtain ⟨rfl, _⟩ := Prod.mk.inj (Option.some.inj read)
        exact .array (items_ordered inside)
termination_by (input.length, 2)
decreasing_by exact Prod.Lex.right _ (by decide)

theorem object_ordered {room : Nat} {input : List Char} {document : Json}
    {rest : { rest : List Char // rest.length < input.length }}
    (read : object room input = some (document, rest)) : document.Ordered := by
  cases room with
  | zero =>
    rw [object] at read
    cases read
  | succ room =>
    rw [object] at read
    split at read
    · obtain ⟨rfl, _⟩ := Prod.mk.inj (Option.some.inj read)
      exact .object .nil fun member among => absurd among List.not_mem_nil
    · split at read
      · cases read
      · next entries later inside =>
        obtain ⟨rfl, _⟩ := Prod.mk.inj (Option.some.inj read)
        exact ordered_ofMembers (members_ordered inside)
termination_by (input.length, 2)
decreasing_by exact Prod.Lex.right _ (by decide)

theorem items_ordered {room : Nat} {input : List Char} {values : List Json}
    {rest : { rest : List Char // rest.length < input.length }}
    (read : items room input = some (values, rest)) : ∀ item ∈ values, item.Ordered := by
  rw [items] at read
  split at read
  · cases read
  · next first after shorter ofFirst =>
    have here := value_ordered ofFirst
    split at read
    · split at read
      · cases read
      · obtain ⟨rfl, _⟩ := Prod.mk.inj (Option.some.inj read)
        exact List.forall_mem_singleton.mpr here
    · split at read
      · cases read
      · next others later fit ofOthers =>
        obtain ⟨rfl, _⟩ := Prod.mk.inj (Option.some.inj read)
        exact List.forall_mem_cons.mpr ⟨here, items_ordered ofOthers⟩
termination_by (input.length, 1)
decreasing_by all_goals omega

theorem members_ordered {room : Nat} {input : List Char} {entries : List (String × Json)}
    {rest : { rest : List Char // rest.length < input.length }}
    (read : members room input = some (entries, rest)) : ∀ member ∈ entries, member.2.Ordered := by
  rw [members] at read
  split at read
  · cases read
  · next key after shorter _ =>
    split at read
    · cases read
    · next first after' shorter' ofFirst =>
      have here := value_ordered ofFirst
      split at read
      · split at read
        · cases read
        · obtain ⟨rfl, _⟩ := Prod.mk.inj (Option.some.inj read)
          exact List.forall_mem_singleton.mpr here
      · split at read
        · cases read
        · next others later fit ofOthers =>
          obtain ⟨rfl, _⟩ := Prod.mk.inj (Option.some.inj read)
          exact List.forall_mem_cons.mpr ⟨here, members_ordered ofOthers⟩
termination_by (input.length, 1)
decreasing_by all_goals omega

end

end Reader

/-- A document that was read is ordered. -/
theorem ordered_of_read? {text : String} {document : Json} (read : read? text = some document) :
    document.Ordered := by
  unfold read? at read
  split at read
  · cases read
  · next inner after fits inside =>
    split at read
    · obtain rfl := Option.some.inj read
      exact Reader.value_ordered inside
    · cases read

end DotChain.Json
