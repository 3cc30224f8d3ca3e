import DotChain.Heap.Equality
import Mathlib.Data.List.Forall2

/-!
# Equality is bisimilarity

Values are bisimilar when some relation that contains them is closed under looking into lists and
objects. Comparing takes a pair of containers that is open for equal and forgets a pair once it is
closed; that this is never wrong is shown by the depths to which values look alike. Main statement:
`equal_iff_bisimilar`, on every heap, whatever its cycles, so equality is an equivalence.
-/

namespace DotChain

/-! ## Numbers -/

namespace Binary64

/-- Comparison of two items: by pattern, or else by value. -/
def Alike (x y : Binary64) : Prop := x = y ∨ x.sameNumber y = true

theorem sameNumber_iff (x y : Binary64) : x.sameNumber y = true ↔
    x.isNaN = false ∧ y.isNaN = false ∧ (x = y ∨ x.isZero = true ∧ y.isZero = true) := by
  simp [sameNumber, and_assoc]

theorem Alike.symm {x y : Binary64} (alike : x.Alike y) : y.Alike x := by
  rcases alike with rfl | same
  · exact .inl rfl
  · obtain ⟨left, right, rfl | ⟨zero, zero'⟩⟩ := (sameNumber_iff x y).mp same
    · exact .inl rfl
    · exact .inr ((sameNumber_iff y x).mpr ⟨right, left, .inr ⟨zero', zero⟩⟩)

theorem Alike.trans {x y z : Binary64} (first : x.Alike y) (second : y.Alike z) : x.Alike z := by
  rcases first with rfl | same
  · exact second
  · rcases second with rfl | same'
    · exact .inr same
    · obtain ⟨left, _, rfl | ⟨zero, _⟩⟩ := (sameNumber_iff x y).mp same
      · exact .inr same'
      · obtain ⟨_, right, rfl | ⟨_, zero'⟩⟩ := (sameNumber_iff y z).mp same'
        · exact .inr same
        · exact .inr ((sameNumber_iff x z).mpr ⟨left, right, .inr ⟨zero, zero'⟩⟩)

end Binary64

namespace Heap

variable {heap : Heap} {R S : Value → Value → Prop}

/-! ## Bisimilarity -/

/-- Two values look alike when what they hold is related. -/
inductive Alike (heap : Heap) (R : Value → Value → Prop) : Value → Value → Prop where
  | null : Alike heap R .null .null
  | bool (b : Bool) : Alike heap R (.bool b) (.bool b)
  | int (n : Int64) : Alike heap R (.int n) (.int n)
  | float {x y : Binary64} (alike : x.Alike y) : Alike heap R (.float x) (.float y)
  | text (s : String) : Alike heap R (.text s) (.text s)
  /-- The lists have as many items, and these are related in order. -/
  | list {a b : ListId} (items : List.Forall₂ R (heap.items a) (heap.items b)) :
    Alike heap R (.list a) (.list b)
  /-- The objects have the same type name and the same names, with related values. -/
  | object {a b : ObjectId} (typeName : (heap.object a).typeName = (heap.object b).typeName)
    (entries : List.Forall₂ (fun x y => x.1 = y.1 ∧ R x.2 y.2) (heap.entries a) (heap.entries b)) :
    Alike heap R (.object a) (.object b)
  | host (id : HostId) : Alike heap R (.host id) (.host id)

/-- A relation whose values look alike. -/
def Bisimulation (heap : Heap) (R : Value → Value → Prop) : Prop := ∀ a b, R a b → heap.Alike R a b

/-- Some bisimulation relates the values. -/
def Bisimilar (heap : Heap) (a b : Value) : Prop := ∃ R, heap.Bisimulation R ∧ R a b

theorem Alike.mono {a b : Value} (sub : ∀ x y, R x y → S x y) (alike : heap.Alike R a b) :
    heap.Alike S a b := by
  cases alike with
  | list items => exact .list (items.imp sub)
  | object typeName entries =>
    exact .object typeName (entries.imp fun x y related => ⟨related.1, sub _ _ related.2⟩)
  | float alike => exact .float alike
  | _ => constructor

theorem bisimulation_bisimilar : heap.Bisimulation heap.Bisimilar := by
  rintro a b ⟨R, closed, related⟩
  exact (closed a b related).mono fun x y held => ⟨R, closed, held⟩

theorem Alike.refl (same : ∀ x, R x x) (a : Value) : heap.Alike R a a := by
  cases a with
  | list id => exact .list (List.forall₂_same.mpr fun x _ => same x)
  | object id => exact .object rfl (List.forall₂_same.mpr fun x _ => ⟨rfl, same x.2⟩)
  | float x => exact .float (.inl rfl)
  | _ => constructor

theorem Bisimilar.refl (a : Value) : heap.Bisimilar a a := by
  refine ⟨Eq, ?_, rfl⟩
  rintro a _ rfl
  exact Alike.refl (fun _ => rfl) a

theorem Bisimilar.symm {a b : Value} (alike : heap.Bisimilar a b) : heap.Bisimilar b a := by
  obtain ⟨R, closed, related⟩ := alike
  refine ⟨fun x y => R y x, ?_, related⟩
  intro x y related
  cases closed y x related with
  | list items => exact .list items.flip
  | object typeName entries =>
    exact .object typeName.symm (entries.imp fun x y held => ⟨held.1.symm, held.2⟩).flip
  | float alike => exact .float alike.symm
  | _ => constructor

theorem forall₂_comp {α β γ : Type} {R : α → β → Prop} {S : β → γ → Prop} {T : α → γ → Prop}
    (comp : ∀ x y z, R x y → S y z → T x z) :
    ∀ {xs : List α} {ys : List β} {zs : List γ},
      List.Forall₂ R xs ys → List.Forall₂ S ys zs → List.Forall₂ T xs zs
  | _, _, _, .nil, .nil => .nil
  | _, _, _, .cons first firsts, .cons second seconds =>
    .cons (comp _ _ _ first second) (forall₂_comp comp firsts seconds)

theorem Bisimilar.trans {a b c : Value} (first : heap.Bisimilar a b) (second : heap.Bisimilar b c) :
    heap.Bisimilar a c := by
  refine ⟨fun x z => ∃ y, heap.Bisimilar x y ∧ heap.Bisimilar y z, ?_, b, first, second⟩
  rintro x z ⟨y, left, right⟩
  have left := bisimulation_bisimilar x y left
  have right := bisimulation_bisimilar y z right
  cases left with
  | list items =>
    cases right with
    | list items' => exact .list (forall₂_comp (fun x y z first second => ⟨y, first, second⟩) items items')
  | object typeName entries =>
    cases right with
    | object typeName' entries' =>
      refine .object (typeName.trans typeName') (forall₂_comp ?_ entries entries')
      exact fun x y z first second => ⟨first.1.trans second.1, y.2, first.2, second.2⟩
  | float alike =>
    cases right with
    | float alike' => exact .float (alike.trans alike')
  | _ =>
    cases right
    constructor

/-! ## Alike to a depth -/

/-- Values look alike as far as a number of steps into lists and objects shows. -/
def AlikeTo (heap : Heap) : Nat → Value → Value → Prop
  | 0, _, _ => True
  | depth + 1, a, b => heap.Alike (heap.AlikeTo depth) a b

theorem AlikeTo.of_succ {depth : Nat} {a b : Value} (alike : heap.AlikeTo (depth + 1) a b) :
    heap.AlikeTo depth a b := by
  induction depth generalizing a b with
  | zero => trivial
  | succ depth ih => exact Alike.mono (fun x y => ih) alike

theorem Bisimilar.alikeTo {a b : Value} (alike : heap.Bisimilar a b) (depth : Nat) :
    heap.AlikeTo depth a b := by
  induction depth generalizing a b with
  | zero => trivial
  | succ depth ih => exact (bisimulation_bisimilar a b alike).mono fun x y => ih

/-- There are finitely many items and fields, each of which is compared with one other. -/
private theorem forall₂_forall {α : Type} {R : Nat → α → α → Prop} {xs ys : List α}
    (related : ∀ depth, List.Forall₂ (R depth) xs ys) :
    List.Forall₂ (fun x y => ∀ depth, R depth x y) xs ys := by
  refine List.forall₂_iff_get.mpr ⟨(related 0).length_eq, fun i left right depth => ?_⟩
  exact (List.forall₂_iff_get.mp (related depth)).2 i left right

theorem bisimilar_of_alikeTo {a b : Value} (alike : ∀ depth, heap.AlikeTo depth a b) :
    heap.Bisimilar a b := by
  refine ⟨fun x y => ∀ depth, heap.AlikeTo depth x y, ?_, alike⟩
  intro x y alike
  have deeper : ∀ depth, heap.Alike (heap.AlikeTo depth) x y := fun depth => alike (depth + 1)
  have first := deeper 0
  cases first with
  | @list a b _ =>
    have items : ∀ depth, List.Forall₂ (heap.AlikeTo depth) (heap.items a) (heap.items b) := by
      intro depth
      cases deeper depth with
      | list items => exact items
    exact .list (forall₂_forall items)
  | @object a b typeName _ =>
    have entries : ∀ depth, List.Forall₂ (fun x y => x.1 = y.1 ∧ heap.AlikeTo depth x.2 y.2)
        (heap.entries a) (heap.entries b) := by
      intro depth
      cases deeper depth with
      | object _ entries => exact entries
    refine .object typeName ((forall₂_forall entries).imp fun x y related => ?_)
    exact ⟨(related 0).1, fun depth => (related depth).2⟩
  | float same => exact .float same
  | _ => constructor

/-! ## What comparing does -/

/-- Comparing two lists member by member. -/
private theorem forall₂_of_all {α : Type} {T : α → α → Prop} {test : α × α → Bool}
    (reads : ∀ x y, test (x, y) = true → T x y) {xs ys : List α} (lengths : xs.length = ys.length)
    (passed : (xs.zip ys).all test = true) : List.Forall₂ T xs ys := by
  refine List.forall₂_iff_zip.mpr ⟨lengths, fun {x y} member => reads x y ?_⟩
  exact List.all_eq_true.mp passed (x, y) member

private theorem forall₂_of_empty {α : Type} {T : α → α → Prop} {xs ys : List α}
    (lengths : xs.length = ys.length) (empty : xs = [] ∨ ys = []) : List.Forall₂ T xs ys := by
  rcases empty with rfl | rfl
  · rw [List.length_nil, eq_comm, List.length_eq_zero_iff] at lengths
    subst lengths
    exact .nil
  · rw [List.length_nil, List.length_eq_zero_iff] at lengths
    subst lengths
    exact .nil

/-- Why two values were found equal: their containers were being compared already, or they are being
compared now and look alike, or the values look alike by themselves. -/
theorem equalIn_cases {opened : List (Container × Container)} {a b : Value}
    (equal : heap.equalIn opened a b = true) :
    (∃ pair ∈ opened, a = pair.1.value ∧ b = pair.2.value) ∨
    (∃ pair : Container × Container, a = pair.1.value ∧ b = pair.2.value ∧
      heap.Alike (fun x y => heap.equalIn (pair :: opened) x y = true) a b) ∨
    ∀ R : Value → Value → Prop, (∀ x, R x x) → heap.Alike R a b := by
  rw [equalIn.eq_def] at equal
  split at equal
  · next x y =>
    have alike : x.Alike y := by simpa [Binary64.Alike] using equal
    exact .inr (.inr fun _ _ => .float alike)
  · next a b =>
    split at equal
    · next taken =>
      rcases (by simpa using taken : a = b ∨ (.list a, .list b) ∈ opened) with rfl | member
      · exact .inr (.inr fun R same => Alike.refl same _)
      · exact .inl ⟨_, member, rfl, rfl⟩
    · refine .inr (.inl ⟨(.list a, .list b), rfl, rfl, .list ?_⟩)
      split at equal
      · obtain ⟨lengths, passed⟩ := Bool.and_eq_true_iff.mp equal
        exact forall₂_of_all (fun x y held => held) (by simpa using lengths) passed
      · next missing =>
        refine forall₂_of_empty (by simpa using equal) ?_
        rcases (by simpa [Decidable.or_iff_not_imp_left] using missing :
          heap.holds (.list a) = false ∨ heap.holds (.list b) = false) with left | right
        · exact .inl (items_of_not_holds left)
        · exact .inr (items_of_not_holds right)
  · next a b =>
    split at equal
    · next taken =>
      rcases (by simpa using taken : a = b ∨ (.object a, .object b) ∈ opened) with rfl | member
      · exact .inr (.inr fun R same => Alike.refl same _)
      · exact .inl ⟨_, member, rfl, rfl⟩
    · right; left
      split at equal
      · obtain ⟨same, passed⟩ := Bool.and_eq_true_iff.mp equal
        obtain ⟨typeName, lengths⟩ := Bool.and_eq_true_iff.mp same
        refine ⟨(.object a, .object b), rfl, rfl, .object (by simpa using typeName) ?_⟩
        refine forall₂_of_all (fun x y held => ?_) (by simpa using lengths) passed
        simpa using held
      · next missing =>
        obtain ⟨typeName, lengths⟩ := Bool.and_eq_true_iff.mp equal
        refine ⟨(.object a, .object b), rfl, rfl, .object (by simpa using typeName) ?_⟩
        refine forall₂_of_empty (by simpa using lengths) ?_
        rcases (by simpa [Decidable.or_iff_not_imp_left] using missing :
          heap.holds (.object a) = false ∨ heap.holds (.object b) = false) with left | right
        · exact .inl (entries_of_not_holds left)
        · exact .inr (entries_of_not_holds right)
  · next apart _ _ =>
    obtain rfl : a = b := by simpa using equal
    exact .inr (.inr fun R same => Alike.refl same _)

/-- Values that were found equal look alike to a depth, if those that are taken for equal do. The values
that are being compared may be taken for equal because they look alike to one step less. -/
theorem alikeTo_of_equalIn (depth : Nat) {opened : List (Container × Container)} {a b : Value}
    (taken : ∀ pair ∈ opened, heap.AlikeTo depth pair.1.value pair.2.value)
    (equal : heap.equalIn opened a b = true) : heap.AlikeTo depth a b := by
  induction depth generalizing opened a b with
  | zero => trivial
  | succ depth ih =>
    have shallow : ∀ pair ∈ opened, heap.AlikeTo depth pair.1.value pair.2.value :=
      fun pair member => (taken pair member).of_succ
    rcases equalIn_cases equal with ⟨pair, member, rfl, rfl⟩ | ⟨pair, rfl, rfl, alike⟩ | alike
    · exact taken pair member
    · have here : heap.AlikeTo depth pair.1.value pair.2.value := ih shallow equal
      exact alike.mono fun x y held => ih (List.forall_mem_cons.mpr ⟨here, shallow⟩) held
    · exact alike _ fun x => (Bisimilar.refl x).alikeTo depth

/-- Bisimilar values are found equal, whatever is taken for equal. -/
theorem equalIn_of_bisimilar (opened : List (Container × Container)) (a b : Value)
    (bisimilar : heap.Bisimilar a b) : heap.equalIn opened a b = true := by
  have alike := bisimulation_bisimilar a b bisimilar
  induction opened, a, b using equalIn.induct heap with
  | case1 opened x y =>
    cases alike with
    | float alike => simpa [equalIn, Binary64.Alike] using alike
  | case2 opened a b taken => rw [equalIn, if_pos taken]
  | case3 opened a b free held ih =>
    cases alike with
    | list items =>
      rw [equalIn, if_neg free, if_pos held, Bool.and_eq_true_iff]
      refine ⟨by simpa using items.length_eq, List.all_eq_true.mpr fun (x, y) member => ?_⟩
      have related := List.forall₂_zip items member
      exact ih x y related (bisimulation_bisimilar x y related)
  | case4 opened a b free missing =>
    cases alike with
    | list items =>
      rw [equalIn, if_neg free, if_neg missing]
      simpa using items.length_eq
  | case5 opened a b taken => rw [equalIn, if_pos taken]
  | case6 opened a b free held ih =>
    cases alike with
    | object typeName entries =>
      rw [equalIn, if_neg free, if_pos held, Bool.and_eq_true_iff, Bool.and_eq_true_iff]
      refine ⟨⟨by simpa using typeName, by simpa using entries.length_eq⟩, ?_⟩
      refine List.all_eq_true.mpr fun ((name, x), (other, y)) member => ?_
      obtain ⟨same, related⟩ := List.forall₂_zip entries member
      have found := ih x y related (bisimulation_bisimilar x y related)
      simpa using ⟨same, found⟩
  | case7 opened a b free missing =>
    cases alike with
    | object typeName entries =>
      rw [equalIn, if_neg free, if_neg missing, Bool.and_eq_true_iff]
      exact ⟨by simpa using typeName, by simpa using entries.length_eq⟩
  | case8 opened a b notFloat notList notObject =>
    cases alike with
    | float => exact (notFloat _ _ rfl rfl).elim
    | list => exact (notList _ _ rfl rfl).elim
    | object => exact (notObject _ _ rfl rfl).elim
    | _ => simp [equalIn]

/-- Comparing two values on a heap tells whether they are bisimilar there, so equality of values is
reflexive, symmetric and transitive. -/
theorem equal_iff_bisimilar (heap : Heap) :
    (∀ a b, heap.equal a b = true ↔ heap.Bisimilar a b) ∧
    Equivalence fun a b => heap.equal a b = true := by
  have decides : ∀ a b, heap.equal a b = true ↔ heap.Bisimilar a b := by
    intro a b
    constructor
    · intro equal
      exact bisimilar_of_alikeTo fun depth => alikeTo_of_equalIn depth (by simp) equal
    · exact equalIn_of_bisimilar [] a b
  refine ⟨decides, ?_, ?_, ?_⟩
  · intro a
    exact (decides a a).mpr (.refl a)
  · intro a b equal
    exact (decides b a).mpr ((decides a b).mp equal).symm
  · intro a b c first second
    exact (decides a c).mpr (((decides a b).mp first).trans ((decides b c).mp second))

end Heap

end DotChain
