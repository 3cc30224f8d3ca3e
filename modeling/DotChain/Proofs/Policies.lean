import DotChain.Proofs.Flattening

/-!
# Policies for the places of errors

Whether the errors of writing are moved decides nothing but where a failure has its place. Main statement:
`policy_moves_places`, the runs of an operation under two policies have the same value, or failures that
differ in their places alone, and leave the same state. Without assignments an evaluation writes nothing, and
its failures have the same places too.

Both halves couple a state with the same state under another policy. They differ in the failures that may end
two runs together: with alike ones, errors of writing may be moved in one run alone; with the same ones, they
may not, and then only reading is coupled.
-/

namespace DotChain

variable {W α : Type}

/-- The same state under another policy. -/
def State.withPositions (state : State W) (positions : PositionPolicy) : State W :=
  { state with config := { state.config with positions := positions } }

/-- Two runs end with the same value, or with failures that differ in their places at most. They leave the
same state but for the policy, which is another one in the second run. -/
structure SameButPlaces (positions : PositionPolicy) (run other : Except Failure α × State W) : Prop where
  result : other.1.mapError Failure.unplaced = run.1.mapError Failure.unplaced
  state : other.2 = run.2.withPositions positions

namespace Coupling

/-- A run beside the run of the same nodes under another policy. -/
def repositioned (W : Type) (positions : PositionPolicy) (failures : Failure → Failure → Prop)
    (moves : Bool → Bool → Prop) : Coupling W where
  states _ s t := t = s.withPositions positions
  failures := failures
  places := Eq
  moves := moves

section
variable {positions : PositionPolicy} {failures : Failure → Failure → Prop} {moves : Bool → Bool → Prop}

/-- No single step but that of moving an error looks at the policy. -/
theorem repositioned_stepwise [Host W] (same : ∀ failure, failures failure failure)
    (moved : ∀ {f g : Failure} {x y : Bool} (span : Span), moves x y → failures f g →
      failures (if x then f.movedTo span else f) (if y then g.movedTo span else g))
    (reading : moves true true) : (repositioned W positions failures moves).Stepwise where
  agree := by
    rintro level s t rfl
    exact ⟨rfl, rfl, rfl, rfl⟩
  push value := by
    rintro rfl
    rfl
  cut := by
    rintro level s t s' t' rfl rfl
    rfl
  enter := by
    rintro level s t rfl
    rfl
  leave := by
    rintro level s t rfl
    rfl
  bind name value := by
    rintro rfl
    rfl
  store new := by
    rintro rfl
    rfl
  fault := by
    rintro fault a b - rfl
    exact same _
  host error := same _
  moved := by
    rintro f g x y a b together rfl alike
    exact moved a together alike
  excused_moved _ excuse := excuse
  reading := reading

/-- Both may enter a node, or both fail for the same limit. -/
theorem repositioned_admits (same : ∀ failure, failures failure failure) (level : Nat) :
    (repositioned W positions failures moves).Admits level := by
  rintro s t a b rfl rfl
  cases full : s.exhausted? with
  | none => exact .inl ⟨rfl, full⟩
  | some limit => exact .inr ⟨limit, rfl, .inr ⟨full, same _⟩⟩

end

end Coupling

section
variable [Host W] (positions : PositionPolicy) (e : Expr)

/-- Under another policy all operations end together, with failures that differ in their places at most. -/
private theorem coupled_alike (level : Nat) :
    (Coupling.repositioned W positions (fun f g => g.unplaced = f.unplaced) fun _ _ => True).CoupledBy level
      e.node e.node := by
  apply e.coupled
  · refine Coupling.repositioned_stepwise (fun _ => rfl) (fun {f g x y} span _ alike => ?_) trivial
    show Failure.unplaced _ = Failure.unplaced _
    cases x <;> cases y <;> simpa using alike
  · exact fun _ _ _ _ => trivial
  · exact fun _ => rfl
  · intro deep _ _
    apply Coupling.repositioned_admits
    exact fun _ => rfl

/-- Under another policy evaluations without assignments end together, with the same failures. -/
private theorem coupled_same (free : e.assigns = false) (level : Nat) :
    (Coupling.repositioned W positions Eq Eq).ReadBy level e.node e.node := by
  refine Expr.coupled_reads (Coupling.repositioned_stepwise (fun _ => rfl) ?_ rfl) (fun _ => rfl) free
    fun deep _ _ => Coupling.repositioned_admits (fun _ => rfl) deep
  rintro f g x y span rfl rfl
  rfl

end

/-- Coupled runs have the same result, as far as their failures tell the same, and reach the same state but
for the policy. -/
private theorem result_of_coupled {β : Type} {positions : PositionPolicy}
    {failures : Failure → Failure → Prop} {moves : Bool → Bool → Prop} {action : Eval W α} {level : Nat}
    (coupled : (Coupling.repositioned W positions failures moves).Coupled level action action)
    (tell : Failure → β) (same : ∀ f g, failures f g → tell g = tell f) (state : State W) :
    (action.outcome (state.withPositions positions)).1.mapError tell =
        (action.outcome state).1.mapError tell ∧
      (action.outcome (state.withPositions positions)).2 =
        (action.outcome state).2.withPositions positions := by
  have ended := coupled state _ rfl
  unfold Coupling.CoupledAt at ended
  generalize action.outcome state = run at ended ⊢
  generalize action.outcome (state.withPositions positions) = other at ended ⊢
  cases ended with
  | returned value reached => exact ⟨rfl, reached⟩
  | failed alike reached => exact ⟨congrArg Except.error (same _ _ alike), reached⟩
  | excused excuse s other => exact excuse.elim

/-- Every operation on every expression runs under one policy as it does under the other, from whatever
state: with the same value, or with failures that differ in their places at most, and to the same state. An
evaluation without assignments has the very same failures, places included. -/
theorem policy_moves_places [Host W] (e : Expr) (value : TypedValue) (state : State W) :
    let reading := state.withPositions .readPathOnly
    let writing := state.withPositions .readAndWrite
    SameButPlaces .readAndWrite (e.evaluate.outcome reading) (e.evaluate.outcome writing) ∧
    SameButPlaces .readAndWrite ((e.store value).outcome reading) ((e.store value).outcome writing) ∧
    SameButPlaces .readAndWrite (e.isAssignable.outcome reading) (e.isAssignable.outcome writing) ∧
    (e.assigns = false → (e.evaluate.outcome writing).1 = (e.evaluate.outcome reading).1) := by
  intro reading writing
  have alike {α : Type} {action : Eval W α} (coupled : (Coupling.repositioned W .readAndWrite
      (fun f g => g.unplaced = f.unplaced) fun _ _ => True).Coupled 0 action action) :
      SameButPlaces .readAndWrite (action.outcome reading) (action.outcome writing) := by
    obtain ⟨result, reached⟩ := result_of_coupled coupled Failure.unplaced (fun _ _ same => same) reading
    exact ⟨result, reached⟩
  have all := coupled_alike (W := W) .readAndWrite e 0
  refine ⟨alike all.evaluate, alike (all.assign value), alike all.isAssignable, fun free => ?_⟩
  have same := (coupled_same (W := W) .readAndWrite e free 0).evaluate
  obtain ⟨result, -⟩ := result_of_coupled same id (fun _ _ same => same.symm) reading
  have whole (result : Except Failure TypedValue) : result.mapError id = result := by
    cases result <;> rfl
  rwa [whole, whole] at result

/-- A root with a list `a`. -/
private def listRoot : State Unit :=
  .initial ⟨.object ⟨0⟩, .object⟩ .standard
    ⟨⟨#[[.int 5]], #[⟨none, .ofList [("a", .plain (.list ⟨0⟩))]⟩], #[]⟩, ()⟩

/-- `a[b]`, where there is no `b`. -/
private def missingKey : Expr :=
  .chain (.property "a" false ⟨0, 1⟩) [.indexer (.property "b" false ⟨2, 3⟩) ⟨1, 4⟩] ⟨0, 4⟩

/-- The key is missing under both policies. When something is stored, the failure is at the key under the
one and at the index under the other; when it is evaluated, it is at the index under both. -/
theorem policy_moves_places_missingKey :
    let missing := Fault.propertyNotFound "b" "object"
    let reading := listRoot.withPositions .readPathOnly
    let writing := listRoot.withPositions .readAndWrite
    (((missingKey.store .null).outcome reading).1 = .error (.fault missing ⟨2, 3⟩) ∧
      ((missingKey.store .null).outcome writing).1 = .error (.fault missing ⟨1, 4⟩) ∧
      ((missingKey.store .null).outcome writing).2 =
        ((missingKey.store .null).outcome reading).2.withPositions .readAndWrite) ∧
    missingKey.assigns = false ∧
      (missingKey.evaluate.outcome writing).1 = .error (.fault missing ⟨1, 4⟩) := by
  intro missing reading writing
  obtain ⟨-, stored, -, evaluated⟩ := policy_moves_places missingKey .null listRoot
  have free : missingKey.assigns = false := rfl
  refine ⟨⟨rfl, rfl, stored.state⟩, free, (evaluated free).trans ?_⟩
  rfl

end DotChain
