import DotChain.Heap.Occurrence
import DotChain.Proofs.Bisimilarity
import DotChain.Proofs.Forest

/-!
# Documents for values

A document that is put into the heap can be had back, and so can a value that a document can express, as a
copy that is equal to it. Main statement: `documents_exchanged`. What carries the second part is that a value
may spell a document whatever it shares (`Spells`): a value that can be expressed spells its document, the
copy spells it on new containers, and values that spell the same document are bisimilar.
-/

namespace DotChain

/-! ## What can be expressed -/

/-- What a document can express, if it occurs inside some containers: no host object, no float that is not
finite, no object with a type name and no container inside itself. -/
def Heap.Plain (heap : Heap) (above : List Container) : Value → Prop
  | .null | .bool _ | .int _ | .text _ => True
  | .float value => value.isFinite = true
  | .list id => heap.holds (.list id) = true ∧ .list id ∉ above
  | .object id =>
    heap.holds (.object id) = true ∧ .object id ∉ above ∧ (heap.object id).typeName = none
  | .host _ => False

/-- A document can express all that occurs in a value, shared or not. -/
def Heap.Expressible (heap : Heap) (value : Value) : Prop :=
  ∀ path above reached, heap.Leads value path above reached → heap.Plain above reached

/-- A container is new in a later heap, and its fields can be written and have no declared types. -/
structure Heap.Fresh (before after : Heap) (container : Container) : Prop where
  absent : before.holds container = false
  held : after.holds container = true
  fields {id : ObjectId} {name : String} {field : Field} : container = .object id →
    after.field? id name = some field → field.writable = true ∧ field.declared = none

/-! ## Spelling -/

/-- A value holds exactly what a document says, in containers of a kind. -/
inductive Spells (heap : Heap) (given : Container → Prop) : Value → Json → Prop where
  | null : Spells heap given .null .null
  | bool (value : Bool) : Spells heap given (.bool value) (.bool value)
  | int (value : Int64) : Spells heap given (.int value) (.int value)
  | float {value : Binary64} (finite : value.isFinite = true) :
    Spells heap given (.float value) (.float value)
  | text (value : String) : Spells heap given (.text value) (.text value)
  | list {id : ListId} {documents : List Json} (known : given (.list id))
    (lengths : (heap.items id).length = documents.length)
    (inside : ∀ pair ∈ (heap.items id).zip documents, Spells heap given pair.1 pair.2) :
    Spells heap given (.list id) (.array documents)
  | object {id : ObjectId} {members : List (String × Json)} (known : given (.object id))
    (unnamed : (heap.object id).typeName = none) (lengths : (heap.entries id).length = members.length)
    (names : ∀ pair ∈ (heap.entries id).zip members, pair.1.1 = pair.2.1)
    (inside : ∀ pair ∈ (heap.entries id).zip members, Spells heap given pair.1.2 pair.2.2) :
    Spells heap given (.object id) (.object members)

namespace Spells

variable {heap : Heap} {given : Container → Prop}

theorem list_iff {id : ListId} {documents : List Json} :
    Spells heap given (.list id) (.array documents) ↔
      given (.list id) ∧ List.Forall₂ (Spells heap given) (heap.items id) documents := by
  rw [List.forall₂_iff_zip]
  constructor
  · intro spells
    cases spells with
    | list known lengths inside => exact ⟨known, lengths, fun member => inside _ member⟩
  · rintro ⟨known, lengths, inside⟩
    exact .list known lengths fun pair member => inside member

theorem object_iff {id : ObjectId} {members : List (String × Json)} :
    Spells heap given (.object id) (.object members) ↔
      given (.object id) ∧ (heap.object id).typeName = none ∧
      List.Forall₂ (fun entry member => entry.1 = member.1 ∧ Spells heap given entry.2 member.2)
        (heap.entries id) members := by
  rw [List.forall₂_iff_zip]
  constructor
  · intro spells
    cases spells with
    | object known unnamed lengths names inside =>
      exact ⟨known, unnamed, lengths, fun member => ⟨names _ member, inside _ member⟩⟩
  · rintro ⟨known, unnamed, lengths, inside⟩
    exact .object known unnamed lengths (fun pair member => (inside member).1)
      fun pair member => (inside member).2

/-- What happens to other containers does not matter. -/
theorem frame {before after : Heap} {value : Value} {document : Json} {given' : Container → Prop}
    (spells : Spells before given value document) (extension : before.Extends after)
    (held : ∀ container, given container → before.holds container = true)
    (also : ∀ container, given container → given' container) : Spells after given' value document := by
  induction spells with
  | null => exact .null
  | bool value => exact .bool value
  | int value => exact .int value
  | float finite => exact .float finite
  | text value => exact .text value
  | @list id documents known lengths inside ih =>
    have same := extension.items (held _ known)
    exact .list (also _ known) (same ▸ lengths) (same ▸ ih)
  | @object id members known unnamed lengths names inside ih =>
    have same := extension.object (held _ known)
    have entries : after.entries id = before.entries id := by rw [Heap.entries, same, Heap.entries]
    exact .object (also _ known) (same ▸ unnamed) (entries ▸ lengths) (entries ▸ names) (entries ▸ ih)

/-- Values that spell the same document are bisimilar, whichever containers they do it in. -/
theorem bisimilar {given' : Container → Prop} {a b : Value} {document : Json}
    (first : Spells heap given a document) (second : Spells heap given' b document) :
    heap.Bisimilar a b := by
  refine ⟨fun a b => ∃ document, Spells heap given a document ∧ Spells heap given' b document, ?_,
    document, first, second⟩
  rintro a b ⟨document, first, second⟩
  cases document with
  | null => cases first; cases second; exact .null
  | bool value => cases first; cases second; exact .bool value
  | int value => cases first; cases second; exact .int value
  | float value => cases first; cases second; exact .float (.inl rfl)
  | text value => cases first; cases second; exact .text value
  | array documents =>
    obtain ⟨id, rfl⟩ : ∃ id, a = .list id := by cases first; exact ⟨_, rfl⟩
    obtain ⟨other, rfl⟩ : ∃ id, b = .list id := by cases second; exact ⟨_, rfl⟩
    have items := (list_iff.mp first).2
    have others := (list_iff.mp second).2
    exact .list (Heap.forall₂_comp (fun _ document _ left right => ⟨document, left, right⟩)
      items others.flip)
  | object members =>
    obtain ⟨id, rfl⟩ : ∃ id, a = .object id := by cases first; exact ⟨_, rfl⟩
    obtain ⟨other, rfl⟩ : ∃ id, b = .object id := by cases second; exact ⟨_, rfl⟩
    obtain ⟨_, unnamed, entries⟩ := object_iff.mp first
    obtain ⟨_, unnamed', others⟩ := object_iff.mp second
    refine .object (unnamed.trans unnamed'.symm) (Heap.forall₂_comp ?_ entries others.flip)
    rintro entry member entry' ⟨name, left⟩ ⟨name', right⟩
    exact ⟨name.trans name'.symm, member.2, left, right⟩

private theorem partner_left {α β : Type} {xs : List α} {ys : List β} {x : α}
    (lengths : xs.length = ys.length) (member : x ∈ xs) : ∃ y, (x, y) ∈ xs.zip ys := by
  rw [← List.map_fst_zip (Nat.le_of_eq lengths)] at member
  obtain ⟨⟨_, y⟩, among, rfl⟩ := List.mem_map.mp member
  exact ⟨y, among⟩

private theorem partner_right {α β : Type} {xs : List α} {ys : List β} {y : β}
    (lengths : xs.length = ys.length) (member : y ∈ ys) : ∃ x, (x, y) ∈ xs.zip ys := by
  rw [← List.map_snd_zip (Nat.le_of_eq lengths.symm)] at member
  obtain ⟨⟨x, _⟩, among, rfl⟩ := List.mem_map.mp member
  exact ⟨x, among⟩

/-- Whatever occurs in a value that spells a document spells one, too. -/
theorem leads {value reached : Value} {document : Json} {path : List Turn} {above : List Container}
    (spells : Spells heap given value document) (leads : heap.Leads value path above reached) :
    ∃ part, Spells heap given reached part := by
  induction leads with
  | here => exact ⟨document, spells⟩
  | item _ there ih =>
    obtain ⟨part, spells⟩ := ih
    cases spells with
    | list known lengths inside =>
      obtain ⟨part, among⟩ := partner_left lengths (List.mem_of_getElem? there)
      exact ⟨part, inside _ among⟩
  | field _ there ih =>
    obtain ⟨part, spells⟩ := ih
    cases spells with
    | object known unnamed lengths names inside =>
      obtain ⟨⟨_, part⟩, among⟩ := partner_left lengths there
      exact ⟨part, inside _ among⟩

/-- Containers are of the kind that was asked for. -/
theorem known {container : Container} {document : Json}
    (spells : Spells heap given container.value document) :
    given container := by
  cases container with
  | list id => cases spells with | list known => exact known
  | object id => cases spells with | object known => exact known

end Spells

/-- What can be expressed spells its document. -/
theorem Heap.Expressible.spells {heap : Heap} {value : Value} (expressible : heap.Expressible value) :
    Spells heap (heap.holds · = true) value (heap.document value) := by
  have inside : ∀ path above reached, heap.Leads value path above reached → above.Nodup →
      Spells heap (heap.holds · = true) reached (heap.documentIn (above.map Container.value) reached) := by
    refine Heap.Leads.downward fun path above reached leads distinct below => ?_
    have plain := expressible path above reached leads
    cases reached with
    | null => rw [Heap.documentIn]; exact .null
    | bool value => rw [Heap.documentIn]; exact .bool value
    | int value => rw [Heap.documentIn]; exact .int value
    | float value =>
      have finite : value.isFinite = true := plain
      rw [Heap.documentIn, if_pos finite]
      exact .float finite
    | text value => rw [Heap.documentIn]; exact .text value
    | host id => exact plain.elim
    | list id =>
      obtain ⟨held, closed⟩ := plain
      rw [Heap.documentIn_list, if_neg closed]
      refine Spells.list_iff.mpr ⟨held, List.forall₂_map_right_iff.mpr (List.forall₂_same.mpr ?_)⟩
      intro item member
      obtain ⟨position, there⟩ := List.mem_iff_getElem?.mp member
      exact below _ _ _ closed (leads.item there)
    | object id =>
      obtain ⟨held, closed, unnamed⟩ := plain
      rw [Heap.documentIn_object, if_neg closed, Entries.mapValues]
      refine Spells.object_iff.mpr
        ⟨held, unnamed, List.forall₂_map_right_iff.mpr (List.forall₂_same.mpr fun entry there => ?_)⟩
      exact ⟨rfl, below _ _ _ closed (leads.field there)⟩
  exact inside _ _ _ .here .nil

/-! ## Copies -/

/-- Whatever heap a document is put into, it is spelled there by new containers. -/
def Json.Copies (document : Json) : Prop :=
  ∀ heap : Heap, heap.Extends (heap.load document).2 ∧
    Spells (heap.load document).2 (heap.Fresh (heap.load document).2) (heap.load document).1 document

section
variable {before middle after : Heap}

/-- What was spelled by new containers is so after more containers were given out. -/
private theorem spells_later {value : Value} {document : Json}
    (spells : Spells middle (before.Fresh middle) value document) (extension : middle.Extends after) :
    Spells after (before.Fresh after) value document := by
  refine spells.frame extension (fun container fresh => fresh.held) fun container fresh => ?_
  refine ⟨fresh.absent, extension.holds fresh.held, fun {id name field} same found => ?_⟩
  rw [Heap.field?, extension.object (same ▸ fresh.held)] at found
  exact fresh.fields same found

/-- What was spelled by containers that are new in one heap is so for any earlier heap. -/
private theorem spells_earlier {value : Value} {document : Json}
    (spells : Spells after (middle.Fresh after) value document) (extension : before.Extends middle) :
    Spells after (before.Fresh after) value document := by
  refine spells.frame (.refl after) (fun container fresh => fresh.held) fun container fresh => ?_
  refine ⟨Bool.eq_false_iff.mpr fun held => ?_, fresh.held, fresh.fields⟩
  have absent := fresh.absent
  rw [extension.holds held] at absent
  cases absent

end

private theorem spells_loadItems {documents : List Json} (inside : ∀ document ∈ documents, document.Copies)
    (heap : Heap) : heap.Extends (heap.loadItems documents).2 ∧
      List.Forall₂ (Spells (heap.loadItems documents).2 (heap.Fresh (heap.loadItems documents).2))
        (heap.loadItems documents).1 documents := by
  induction documents generalizing heap with
  | nil => exact ⟨.refl heap, .nil⟩
  | cons document rest ih =>
    obtain ⟨ofFirst, ofRest⟩ := List.forall_mem_cons.mp inside
    obtain ⟨extension, spells⟩ := ofFirst heap
    obtain ⟨further, others⟩ := ih ofRest (heap.load document).2
    refine ⟨extension.trans further, .cons (spells_later spells further) ?_⟩
    exact others.imp fun _ _ spells => spells_earlier spells extension

private theorem spells_loadMembers {members : List (String × Json)}
    (inside : ∀ member ∈ members, member.2.Copies) (heap : Heap) :
    heap.Extends (heap.loadMembers members).2 ∧
      ∃ values : List (String × Value), (heap.loadMembers members).1 = Entries.mapValues .plain values ∧
        List.Forall₂ (fun entry member => entry.1 = member.1 ∧ Spells (heap.loadMembers members).2
          (heap.Fresh (heap.loadMembers members).2) entry.2 member.2) values members := by
  induction members generalizing heap with
  | nil => exact ⟨.refl heap, [], rfl, .nil⟩
  | cons member rest ih =>
    obtain ⟨name, document⟩ := member
    obtain ⟨ofFirst, ofRest⟩ := List.forall_mem_cons.mp inside
    obtain ⟨extension, spells⟩ := ofFirst heap
    obtain ⟨further, values, fields, others⟩ := ih ofRest (heap.load document).2
    refine ⟨extension.trans further, (name, (heap.load document).1) :: values, ?_,
      .cons ⟨rfl, spells_later spells further⟩ ?_⟩
    · rw [Entries.mapValues_cons, ← fields]
      rfl
    · exact others.imp fun _ _ related => ⟨related.1, spells_earlier related.2 extension⟩

private theorem fresh_newList {before middle : Heap} (extension : before.Extends middle)
    (items : List Value) :
    before.Fresh (middle.newList items).2 (.list (middle.newList items).1) := by
  refine ⟨Bool.eq_false_iff.mpr fun held => ?_, (middle.holds_newList _ _).mpr (.inr rfl), nofun⟩
  have absent := middle.not_holds_newList items
  rw [extension.holds held] at absent
  cases absent

private theorem fresh_newObject {before middle : Heap} (extension : before.Extends middle)
    {values : List (String × Value)} (ascending : Entries.Ascending values) :
    let content := ⟨none, .ofList (Entries.mapValues .plain values)⟩
    before.Fresh (middle.newObject content).2 (.object (middle.newObject content).1) := by
  intro content
  refine ⟨Bool.eq_false_iff.mpr fun held => ?_, (middle.holds_newObject _ _).mpr (.inr rfl), ?_⟩
  · have absent := middle.not_holds_newObject content
    rw [extension.holds held] at absent
    cases absent
  · intro id name field same found
    obtain rfl := Container.object.inj same
    have order := (Entries.ascending_mapValues Field.plain).mpr ascending
    rw [Heap.field?, middle.object_newObject content, Table.get?, Table.entries_ofList order,
      Entries.get?_mapValues] at found
    obtain ⟨value, _, rfl⟩ := Option.map_eq_some_iff.mp found
    exact ⟨rfl, rfl⟩

private theorem entries_newObject (heap : Heap) {values : List (String × Value)}
    (ascending : Entries.Ascending values) :
    let content := ⟨none, .ofList (Entries.mapValues .plain values)⟩
    (heap.newObject content).2.entries (heap.newObject content).1 = values := by
  intro content
  have order := (Entries.ascending_mapValues Field.plain).mpr ascending
  rw [Heap.entries, heap.object_newObject content, Table.entries_ofList order, Entries.map_mapValues]
  exact List.map_id values

private theorem ascending_of_names {α β : Type} {xs : List (String × α)} {ys : List (String × β)}
    (names : List.Forall₂ (fun x y => x.1 = y.1) xs ys) (ascending : Entries.Ascending xs) :
    Entries.Ascending ys := by
  have same : xs.map Prod.fst = ys.map Prod.fst := by
    rw [← List.forall₂_eq_eq_eq, List.forall₂_map_left_iff, List.forall₂_map_right_iff]
    exact names
  have order : (xs.map Prod.fst).Pairwise (· < ·) := List.pairwise_map.mpr ascending
  rw [same] at order
  exact List.pairwise_map.mp order

/-- A document that a value spells is spelled by its copies. -/
theorem Spells.copies {heap : Heap} {given : Container → Prop} {value : Value} {document : Json}
    (spells : Spells heap given value document) : document.Copies := by
  intro target
  induction spells generalizing target with
  | null => exact ⟨.refl target, .null⟩
  | bool value => exact ⟨.refl target, .bool value⟩
  | int value => exact ⟨.refl target, .int value⟩
  | float finite => exact ⟨.refl target, .float finite⟩
  | text value => exact ⟨.refl target, .text value⟩
  | @list id documents known lengths inside ih =>
    have copies : ∀ document ∈ documents, document.Copies := by
      intro document member
      obtain ⟨item, among⟩ := partner_right lengths member
      exact ih _ among
    obtain ⟨extension, items⟩ := spells_loadItems copies target
    rw [Heap.load]
    generalize target.loadItems documents = loaded at extension items
    obtain ⟨values, middle⟩ := loaded
    have further := middle.extends_newList values
    refine ⟨extension.trans further, list_iff.mpr ⟨fresh_newList extension values, ?_⟩⟩
    rw [middle.items_newList values]
    exact items.imp fun _ _ spells => spells_later spells further
  | @object id members known unnamed lengths names inside ih =>
    have copies : ∀ member ∈ members, member.2.Copies := by
      intro member among
      obtain ⟨entry, among⟩ := partner_right lengths among
      exact ih _ among
    obtain ⟨extension, values, fields, entries⟩ := spells_loadMembers copies target
    have order : Entries.Ascending members :=
      ascending_of_names (List.forall₂_iff_zip.mpr ⟨lengths, fun among => names _ among⟩)
        (heap.ascending_entries id)
    have order : Entries.Ascending values :=
      ascending_of_names (entries.imp fun _ _ related => related.1.symm).flip order
    rw [Heap.load]
    generalize target.loadMembers members = loaded at extension fields entries
    obtain ⟨_, middle⟩ := loaded
    obtain rfl : _ = _ := fields
    have further := middle.extends_newObject ⟨none, .ofList (Entries.mapValues .plain values)⟩
    have content := middle.object_newObject ⟨none, .ofList (Entries.mapValues .plain values)⟩
    dsimp only
    refine ⟨extension.trans further, object_iff.mpr ⟨fresh_newObject extension order, by rw [content], ?_⟩⟩
    rw [entries_newObject middle order]
    exact entries.imp fun _ _ related => ⟨related.1, spells_later related.2 further⟩

/-! ## There and back -/

/-- A document that is in order and whose floats are finite is had back from any heap that it is put into. A
value that a document can express is equal to what its document becomes, and all containers of that are
new, with fields that can be written and have no declared types. -/
theorem documents_exchanged (heap : Heap) :
    (∀ document : Json, document.Ordered → document.IsFinite →
      (heap.load document).2.document (heap.load document).1 = document) ∧
    ∀ value, heap.Expressible value →
      let (copy, later) := heap.load (heap.document value)
      heap.Extends later ∧ later.equal copy value = true ∧
        ∀ path above container, later.Leads copy path above container.value →
          heap.Fresh later container := by
  constructor
  · intro document ordered finite
    obtain ⟨taken, gains⟩ := ordered.loads finite heap
    have shown := List.forall_mem_singleton.mp gains.inside
    exact shown.document (by simpa using gains.distinct)
  · intro value expressible
    have spells := expressible.spells
    obtain ⟨extension, copied⟩ := spells.copies heap
    have kept := spells.frame extension (fun _ held => held) fun _ held => held
    refine ⟨extension, Heap.equalIn_of_bisimilar [] _ _ (copied.bisimilar kept), ?_⟩
    intro path above container leads
    obtain ⟨part, spells⟩ := copied.leads leads
    exact spells.known

/-- A list that holds one list twice. -/
private def twice : Heap := ⟨#[[], [.list ⟨0⟩, .list ⟨0⟩]], #[], #[]⟩

private theorem expressible_twice : twice.Expressible (.list ⟨1⟩) := by
  have reaches {path : List Turn} {above : List Container} {reached : Value}
      (leads : twice.Leads (.list ⟨1⟩) path above reached) :
      (reached = .list ⟨1⟩ ∧ above = []) ∨ (reached = .list ⟨0⟩ ∧ above = [.list ⟨1⟩]) := by
    induction leads with
    | here => exact .inl ⟨rfl, rfl⟩
    | item _ there ih =>
      rcases ih with ⟨same, rfl⟩ | ⟨same, rfl⟩
      · obtain rfl := Value.list.inj same
        have both : ∀ item ∈ twice.items ⟨1⟩, item = .list ⟨0⟩ := by decide
        exact .inr ⟨both _ (List.mem_of_getElem? there), rfl⟩
      · obtain rfl := Value.list.inj same
        cases there
    | field _ _ ih => rcases ih with ⟨same, _⟩ | ⟨same, _⟩ <;> cases same
  intro path above reached leads
  rcases reaches leads with ⟨rfl, rfl⟩ | ⟨rfl, rfl⟩
  · exact ⟨rfl, List.not_mem_nil⟩
  · exact ⟨rfl, by decide⟩

theorem documents_exchanged_twice :
    (Json.array [.int 1, .null]).Ordered ∧ (Json.array [.int 1, .null]).IsFinite ∧
    twice.Expressible (.list ⟨1⟩) ∧
    (twice.load (.array [.int 1, .null])).2.document (twice.load (.array [.int 1, .null])).1 =
      .array [.int 1, .null] ∧
    (twice.load (twice.document (.list ⟨1⟩))).2.equal (twice.load (twice.document (.list ⟨1⟩))).1
      (.list ⟨1⟩) = true := by
  have ordered : (Json.array [.int 1, .null]).Ordered :=
    .array fun item member => .flat (by revert item; decide)
  have finite : (Json.array [.int 1, .null]).IsFinite := fun _ member => absurd member List.not_mem_nil
  obtain ⟨back, copied⟩ := documents_exchanged twice
  exact ⟨ordered, finite, expressible_twice, back _ ordered finite, (copied _ expressible_twice).2.1⟩

end DotChain
