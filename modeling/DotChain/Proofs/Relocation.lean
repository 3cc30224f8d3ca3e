import DotChain.Proofs.Coupling

/-!
# Trees at other places

Where the nodes of a tree stand, and which of its segments stand after a point, decides nothing but where a
failure has its place. Main statement: `tree_relocates`, the runs of a tree and of the tree at other places
have the same value, or failures that differ in their places alone, and leave the same state.
-/

namespace DotChain

variable {W α : Type}

/-- Two failures are the same but for their places. An error of the expression has a place, which is moved;
an error of the application has none. -/
inductive Failure.Relocates (move : Span → Span) : Failure → Failure → Prop where
  | eval (fault : Fault) (message : String) (span : Span) (notes : List Note) :
    Relocates move (.eval ⟨fault, message, some span, notes⟩)
      (.eval ⟨fault, message, some (move span), notes⟩)
  | host (error : HostError) : Relocates move (.host error) (.host error)

/-- Two runs leave the same state, with the same result or with failures that differ in their places
alone. -/
inductive RunsRelocate (move : Span → Span) :
    Except Failure α × State W → Except Failure α × State W → Prop where
  | returned (value : α) (final : State W) : RunsRelocate move (.ok value, final) (.ok value, final)
  | failed {first second : Failure} (moved : first.Relocates move second) (final : State W) :
    RunsRelocate move (.error first, final) (.error second, final)

/-- A failure that is moved to a node ends up where the node stands, whatever its place was. -/
theorem Failure.Relocates.movedTo {move : Span → Span} {first second : Failure}
    (moved : first.Relocates move second) (span : Span) :
    (first.movedTo span).Relocates move (second.movedTo (move span)) := by
  cases moved with
  | eval fault message _ notes => exact .eval fault message span notes
  | host error => exact .host error

/-- A run of a tree beside one of the tree at other places. -/
def Coupling.relocation (W : Type) (move : Span → Span) : Coupling W where
  states _ := Eq
  failures := Failure.Relocates move
  places a b := b = move a

theorem Coupling.relocation_stepwise [Host W] (move : Span → Span) :
    (Coupling.relocation W move).Stepwise where
  agree := by
    rintro level s t rfl
    exact ⟨rfl, rfl, rfl, rfl⟩
  push value := by
    rintro rfl
    rfl
  cut := by
    rintro level s t s' t' rfl rfl
    rfl
  enter := by
    rintro level s t rfl
    rfl
  leave := by
    rintro level s t rfl
    rfl
  bind name value := by
    rintro rfl
    rfl
  store new := by
    rintro rfl
    rfl
  fault := by
    rintro fault a b - rfl
    exact .eval fault fault.message a []
  host error := .host error
  moved := by
    rintro f g x y a b rfl rfl alike
    cases x with
    | false => exact alike
    | true => exact alike.movedTo a
  excused_moved _ excuse := excuse
  reading := rfl

theorem Coupling.relocation_writesAlike (move : Span → Span) :
    (Coupling.relocation W move).WritesAlike := by
  rintro level s t rfl
  rfl

/-- Both may enter a node, or both fail for the same limit, each at its own place. -/
private theorem relocation_admits (move : Span → Span) (level : Nat) :
    (Coupling.relocation W move).Admits level := by
  rintro s t a b rfl rfl
  cases full : s.exhausted? with
  | none => exact .inl ⟨rfl, rfl⟩
  | some limit =>
    have alike : Failure.Relocates move (.fault (.recursionLimit limit) a)
        (.fault (.recursionLimit limit) (move a)) :=
      .eval (.recursionLimit limit) (Fault.recursionLimit limit).message a []
    exact .inr ⟨limit, rfl, .inr ⟨rfl, alike⟩⟩

private theorem runsRelocate_of_coupled {move : Span → Span} {first second : Eval W α} (state : State W)
    {level : Nat} (coupled : (Coupling.relocation W move).Coupled level first second) :
    RunsRelocate move (first.outcome state) (second.outcome state) := by
  have ended := coupled state state rfl
  unfold Coupling.CoupledAt at ended
  generalize first.outcome state = run at ended ⊢
  generalize second.outcome state = run' at ended ⊢
  cases ended with
  | returned value reached =>
    obtain rfl := reached
    exact .returned value _
  | failed alike reached =>
    obtain rfl := reached
    exact .failed alike _
  | excused excuse s other => exact excuse.elim

/-- Two trees with the same nodes, of which the second one has its nodes where a function moves those of the
first and has points wherever it likes, run alike under all three operations, from whatever state: with the
same value, or with failures that differ in the place alone, which is moved by the function. -/
theorem tree_relocates [Host W] (move : Span → Span) {e other : Expr}
    (matching : e.Matches (fun a b => b = move a) other) (value : TypedValue) (state : State W) :
    RunsRelocate move (e.evaluate.outcome state) (other.evaluate.outcome state) ∧
    RunsRelocate move ((e.store value).outcome state) ((other.store value).outcome state) ∧
    RunsRelocate move (e.isAssignable.outcome state) (other.isAssignable.outcome state) := by
  have coupled : (Coupling.relocation W move).CoupledBy 0 e.node other.node :=
    Expr.coupled_matches (Coupling.relocation_stepwise move) (Coupling.relocation_writesAlike move)
      matching fun deep _ _ => relocation_admits move deep
  exact ⟨runsRelocate_of_coupled state coupled.evaluate,
    runsRelocate_of_coupled state (coupled.assign value),
    runsRelocate_of_coupled state coupled.isAssignable⟩

/-- `a.f(b)[c]`. -/
private def calledAndPicked : Expr :=
  .chain (.property "a" false ⟨0, 1⟩)
    [.method "f" [.property "b" false ⟨4, 5⟩] true ⟨2, 6⟩,
      .indexer (.property "c" false ⟨7, 8⟩) ⟨6, 9⟩] ⟨0, 9⟩

/-- The same nodes with the ends of their spans exchanged, and with points elsewhere. -/
private def calledAndPickedBackwards : Expr :=
  .chain (.property "a" true ⟨1, 0⟩)
    [.method "f" [.property "b" true ⟨5, 4⟩] false ⟨6, 2⟩,
      .indexer (.property "c" false ⟨8, 7⟩) ⟨9, 6⟩] ⟨9, 0⟩

/-- A root with an object `a`, which has no methods, and a value `b`. -/
private def objectAndValue : State Unit :=
  .initial ⟨.object ⟨0⟩, .object⟩ .standard
    ⟨⟨#[], #[⟨none, .ofList [("a", .plain (.object ⟨1⟩)), ("b", .plain (.int 1))]⟩,
      ⟨some "Account", .empty⟩], #[]⟩, ()⟩

/-- Both fail to find the method, each where its own node stands. -/
theorem tree_relocates_backwards :
    calledAndPicked.Matches (fun a b => b = ⟨a.stop, a.start⟩) calledAndPickedBackwards ∧
    (calledAndPicked.evaluate.outcome objectAndValue).1 =
      .error (.fault (.methodNotFound "f" "Account") ⟨2, 6⟩) ∧
    (calledAndPickedBackwards.evaluate.outcome objectAndValue).1 =
      .error (.fault (.methodNotFound "f" "Account") ⟨6, 2⟩) := by
  have called : Expr.Matches (fun a b => b = ⟨a.stop, a.start⟩)
      (.method "f" [.property "b" false ⟨4, 5⟩] true ⟨2, 6⟩)
      (.method "f" [.property "b" true ⟨5, 4⟩] false ⟨6, 2⟩) :=
    .method "f" true false (.cons (.property "b" false true rfl) .nil) rfl
  have picked : Expr.Matches (fun a b => b = ⟨a.stop, a.start⟩)
      (.indexer (.property "c" false ⟨7, 8⟩) ⟨6, 9⟩) (.indexer (.property "c" false ⟨8, 7⟩) ⟨9, 6⟩) :=
    .indexer (.property "c" false false rfl) rfl
  have matching : calledAndPicked.Matches (fun a b => b = ⟨a.stop, a.start⟩) calledAndPickedBackwards :=
    .chain (.property "a" false true rfl) (.cons called (.cons picked .nil)) rfl
  have failed : (calledAndPicked.evaluate.outcome objectAndValue).1 =
      .error (.fault (.methodNotFound "f" "Account") ⟨2, 6⟩) := rfl
  refine ⟨matching, failed, ?_⟩
  obtain ⟨evaluated, -, -⟩ := tree_relocates _ matching .null objectAndValue
  generalize calledAndPicked.evaluate.outcome objectAndValue = run at evaluated failed
  generalize calledAndPickedBackwards.evaluate.outcome objectAndValue = run' at evaluated ⊢
  cases evaluated with
  | returned value final => cases failed
  | failed moved final =>
    obtain rfl := Except.error.inj failed
    cases moved
    rfl

end DotChain
