import DotChain.Heap.Extension
import DotChain.Heap.Write
import DotChain.Proofs.Law
import DotChain.Scripted.World

/-!
# Persistence of containers

Expressions write through aliases, cycles and nested assignments, and may fail after some of their
writes. What they can never do is to take a field away, to change its marks, to write a field that is
not writable, to rename an object's type or to change the length of a list. Main statement:
`session_upholds`, for any number of operations on one state.
-/

namespace DotChain

variable {W α β : Type}

/-! ## What a later heap owes to an earlier one -/

/-- Every container of an earlier heap is one of a later heap, and what may not change has not. -/
structure Heap.Upholds (before after : Heap) : Prop where
  holds {container : Container} : before.holds container = true → after.holds container = true
  length {id : ListId} : before.holds (.list id) = true →
    (after.items id).length = (before.items id).length
  typeName {id : ObjectId} : before.holds (.object id) = true →
    (after.object id).typeName = (before.object id).typeName
  /-- A field that is not writable is the same. -/
  readOnly {id : ObjectId} {name : String} {field : Field} : before.holds (.object id) = true →
    before.field? id name = some field → field.writable = false → after.field? id name = some field
  /-- A field is still there, with its marks. -/
  marks {id : ObjectId} {name : String} {field : Field} : before.holds (.object id) = true →
    before.field? id name = some field → ∃ later, after.field? id name = some later ∧
      later.writable = field.writable ∧ later.declared = field.declared
  /-- A field that was added has the marks of a new one. -/
  added {id : ObjectId} {name : String} {later : Field} : before.holds (.object id) = true →
    before.field? id name = none → after.field? id name = some later →
    later.writable = true ∧ later.declared = none

namespace Heap

theorem Extends.upholds {before after : Heap} (extension : before.Extends after) :
    before.Upholds after := by
  have fields {id : ObjectId} (held : before.holds (.object id) = true) (name : String) :
      after.field? id name = before.field? id name := by
    simp only [field?, extension.object held]
  refine ⟨extension.holds, ?_, ?_, ?_, ?_, ?_⟩
  · intro id held
    rw [extension.items held]
  · intro id held
    rw [extension.object held]
  · intro id name field held found _
    rw [fields held, found]
  · intro id name field held found
    exact ⟨field, by rw [fields held, found], rfl, rfl⟩
  · intro id name later held missing found
    rw [fields held, missing] at found
    cases found

namespace Upholds

theorem refl (heap : Heap) : heap.Upholds heap := (Extends.refl heap).upholds

theorem trans {before middle after : Heap} (first : before.Upholds middle)
    (second : middle.Upholds after) : before.Upholds after := by
  refine ⟨fun held => second.holds (first.holds held), ?_, ?_, ?_, ?_, ?_⟩
  · intro id held
    exact (second.length (first.holds held)).trans (first.length held)
  · intro id held
    exact (second.typeName (first.holds held)).trans (first.typeName held)
  · intro id name field held found fixed
    exact second.readOnly (first.holds held) (first.readOnly held found fixed) fixed
  · intro id name field held found
    obtain ⟨between, found', writable, declared⟩ := first.marks held found
    obtain ⟨later, found'', writable', declared'⟩ := second.marks (first.holds held) found'
    exact ⟨later, found'', writable'.trans writable, declared'.trans declared⟩
  · intro id name later held missing found
    -- The field may have been added by the first part or by the second.
    cases between : middle.field? id name with
    | none => exact second.added (first.holds held) between found
    | some field =>
      obtain ⟨writable, declared⟩ := first.added held missing between
      obtain ⟨last, found', writable', declared'⟩ := second.marks (first.holds held) between
      rw [found] at found'
      obtain rfl := Option.some.inj found'
      exact ⟨writable'.trans writable, declared'.trans declared⟩

end Upholds

/-! ## Single writes -/

theorem PutsItem.upholds {before after : Heap} {id : ListId} {position : Nat} {value : Value}
    (puts : before.PutsItem after id position value) : before.Upholds after := by
  have fields (other : ObjectId) (name : String) : after.field? other name = before.field? other name := by
    rw [field?, puts.objects, field?]
  refine ⟨fun held => (puts.holds _).trans held, ?_, ?_, ?_, ?_, ?_⟩
  · intro other _
    by_cases same : other = id
    · subst same
      rw [puts.here, List.length_set]
    · rw [puts.lists same]
  · intro other _
    rw [puts.objects]
  · intro other name field _ found _
    exact (fields other name).trans found
  · intro other name field _ found
    exact ⟨field, (fields other name).trans found, rfl, rfl⟩
  · intro other name later _ missing found
    rw [fields, missing] at found
    cases found

/-- The field that is written keeps what is owed because it may be written and keeps its marks. -/
theorem PutsField.upholds {before after : Heap} {id : ObjectId} {name : String} {value : Value}
    (puts : before.PutsField after id name value) : before.Upholds after := by
  refine ⟨fun held => (puts.holds _).trans held, ?_, ?_, ?_, ?_, ?_⟩
  · intro other _
    rw [puts.lists]
  · intro other _
    by_cases same : other = id
    · subst same
      exact puts.typeName
    · rw [puts.objects same]
  · intro other key old _ found fixed
    by_cases here : other = id ∧ key = name
    · obtain ⟨rfl, rfl⟩ := here
      simp [puts.allowed found] at fixed
    · rw [puts.field?_eq here, found]
  · intro other key old held found
    by_cases here : other = id ∧ key = name
    · obtain ⟨rfl, rfl⟩ := here
      exact ⟨{ old with value := value }, by rw [puts.here held, found], rfl, rfl⟩
    · exact ⟨old, by rw [puts.field?_eq here, found], rfl, rfl⟩
  · intro other key later held missing found
    by_cases here : other = id ∧ key = name
    · obtain ⟨rfl, rfl⟩ := here
      rw [puts.here held, missing] at found
      obtain rfl := Option.some.inj found
      exact ⟨rfl, rfl⟩
    · rw [puts.field?_eq here, missing] at found
      cases found

end Heap

/-! ## Operations on expressions -/

/-- A computation of the application changes no container that was given out before. -/
def HostAction.Leaves (action : HostAction W α) : Prop :=
  ∀ store : Store W, store.heap.Extends (action.outcome store).2.heap

/-- Whatever the application is asked or told, it changes no container that was given out before. -/
def Host.LeavesContainers (W : Type) [Host W] : Prop :=
  ∀ {α : Type} {action : HostAction W α}, action.Call → action.Leaves

/-- The law of persistence, under which there may be any failure. -/
def Law.persistence (W : Type) : Law W where
  leads before after := before.heap.Upholds after.heap
  fails _ _ := True

theorem Law.persistence_writing [Host W] (leaves : Host.LeavesContainers W) :
    (Law.persistence W).Writing where
  refl state := Heap.Upholds.refl state.heap
  trans := Heap.Upholds.trans
  scope _ inside := inside
  node inside := inside
  query asked state := (leaves (.query asked) state.store).upholds
  fault _ _ _ := trivial
  moved _ _ := trivial
  failed_scope _ _ := trivial
  failed_node _ := trivial
  failed_call _ _ _ _ := trivial
  bind state _ _ := Heap.Upholds.refl state.heap
  replace done := (Heap.putsItem_of_replace? done).upholds
  write done := (Heap.putsField_of_write? done).upholds
  host_write id name value state := (leaves (.write id name value) state.store).upholds

/-- An operation on an expression. -/
inductive Request where
  | evaluate (e : Expr)
  | store (e : Expr) (value : TypedValue)
  | ask (e : Expr)

/-- The state that an operation leaves, however it ends. -/
def Request.run [Host W] (state : State W) : Request → State W
  | evaluate e => (e.evaluate.outcome state).2
  | store e value => ((e.store value).outcome state).2
  | ask e => (e.isAssignable.outcome state).2

/-- The state after operations one after the other on one state. -/
def State.afterSession [Host W] (state : State W) (session : List Request) : State W :=
  session.foldl Request.run state

theorem request_upholds [Host W] (leaves : Host.LeavesContainers W) (state : State W)
    (request : Request) : state.heap.Upholds (request.run state).heap := by
  have writes := Law.persistence_writing leaves
  cases request with
  | evaluate e => exact ((e.keeps writes).evaluate state).leads
  | store e value => exact ((e.keeps writes).assign value state).leads
  | ask e => exact ((e.keeps writes).isAssignable state).leads

/-! ## Scripted applications change no container -/

namespace HostAction

theorem leaves_of_same {action : HostAction W α} (same : ∀ store, (action.outcome store).2 = store) :
    action.Leaves := by
  intro store
  rw [same]
  exact Heap.Extends.refl store.heap

theorem leaves_bind {first : HostAction W α} {next : α → HostAction W β} (before : first.Leaves)
    (after : ∀ value, (next value).Leaves) : HostAction.Leaves (first >>= next) := by
  intro store
  have start := before store
  rw [outcome_bind]
  rcases run : first.outcome store with ⟨_ | value, reached⟩
  · rwa [run] at start
  · rw [run] at start
    exact start.trans (after value reached)

end HostAction

namespace Scripted

private theorem leaves_attempt (operation name : String) (id : HostId) :
    HostAction.Leaves (attempt operation name id) := by
  refine HostAction.leaves_bind (HostAction.leaves_of_same fun _ => rfl) fun store => ?_
  dsimp only
  split
  · exact HostAction.leaves_of_same fun _ => rfl
  · split
    · exact HostAction.leaves_of_same fun _ => rfl
    · exact HostAction.leaves_of_same fun _ => rfl

private theorem leaves_alter (id : HostId) (change : Script → Script) :
    HostAction.Leaves (alter id change) := fun store => Heap.Extends.refl store.heap

private theorem leaves_answer (id : HostId) (script : Script) (args : List Value) (reply : Reply) :
    HostAction.Leaves (answer id script args reply) := by
  cases reply with
  | count => exact HostAction.leaves_of_same fun _ => rfl
  | list => exact fun store => store.heap.extends_newList args
  | last => exact HostAction.leaves_of_same fun _ => rfl
  | bump =>
    refine HostAction.leaves_bind (leaves_alter id _) fun _ => ?_
    exact HostAction.leaves_of_same fun _ => rfl

/-- A scripted object may make new lists and changes nothing else in the heap. -/
theorem leavesContainers : Host.LeavesContainers World := by
  intro α action called
  cases called with
  | query asked =>
    cases asked with
    | read id name =>
      refine HostAction.leaves_bind (leaves_attempt _ name id) fun script => ?_
      exact HostAction.leaves_of_same fun _ => rfl
    | canWrite id name =>
      refine HostAction.leaves_bind (leaves_attempt _ name id) fun script => ?_
      exact HostAction.leaves_of_same fun _ => rfl
    | invoke id name args =>
      refine HostAction.leaves_bind (leaves_attempt _ name id) fun script => ?_
      cases script.methods.get? name with
      | none => exact HostAction.leaves_of_same fun _ => rfl
      | some reply =>
        refine HostAction.leaves_bind (leaves_answer id script args reply) fun value => ?_
        exact HostAction.leaves_of_same fun _ => rfl
  | write id name value =>
    refine HostAction.leaves_bind (leaves_attempt _ name id) fun script => ?_
    by_cases writable : script.writable.contains name = true
    · rw [if_pos writable]
      refine HostAction.leaves_bind (leaves_alter id _) fun _ => ?_
      exact HostAction.leaves_of_same fun _ => rfl
    · rw [if_neg writable]
      exact HostAction.leaves_of_same fun _ => rfl

end Scripted

/-! ## Sessions -/

/-- However many operations are run on a state, and however each of them ends, the containers that were
there at the start keep what may not change. -/
theorem session_upholds [Host W] (leaves : Host.LeavesContainers W) (session : List Request)
    (state : State W) : state.heap.Upholds (state.afterSession session).heap := by
  induction session generalizing state with
  | nil => exact Heap.Upholds.refl state.heap
  | cons request session ih =>
    have first := request_upholds leaves state request
    exact first.trans (ih (request.run state))

/-- A root that holds itself, a list, an object of the application and a number that may not be
written. -/
private def selfHolding : State Scripted.World :=
  .initial ⟨.object ⟨0⟩, .object⟩ .standard
    ⟨⟨#[[.int 1, .int 2]],
      #[⟨none, .ofList [("id", ⟨.int 7, false, some .int⟩), ("me", .plain (.object ⟨0⟩)),
        ("marks", .plain (.list ⟨0⟩)), ("bank", .plain (.host ⟨0⟩))]⟩],
      #[⟨"Account", "Account"⟩]⟩,
    ⟨#[{ Scripted.Script.plain "Account" .empty with writable := ["limit"] }], []⟩⟩

/-- `me.id`, which is refused; `marks[0] = (me.name = #root)`, which adds a field; and `bank.limit`. -/
private def attempts : List Request :=
  [.store (.chain (.property "me" false ⟨0, 2⟩) [.property "id" true ⟨3, 5⟩] ⟨0, 5⟩) .null,
    .evaluate (.assign
      (.chain (.property "marks" false ⟨0, 5⟩) [.indexer (.literal (.int 0) ⟨6, 7⟩) ⟨5, 8⟩] ⟨0, 8⟩)
      (.assign (.chain (.property "me" false ⟨12, 14⟩) [.property "name" true ⟨15, 19⟩] ⟨12, 19⟩)
        (.reference "root" ⟨22, 27⟩) ⟨12, 27⟩) ⟨0, 28⟩),
    .store (.chain (.property "bank" false ⟨0, 4⟩) [.property "limit" true ⟨5, 10⟩] ⟨0, 10⟩) .null]

/-- The number is still there, and the list, which now holds the root, still has two items. -/
theorem session_upholds_selfHolding :
    Host.LeavesContainers Scripted.World ∧
    (selfHolding.afterSession attempts).heap.field? ⟨0⟩ "id" = some ⟨.int 7, false, some .int⟩ ∧
    ((selfHolding.afterSession attempts).heap.items ⟨0⟩).length = 2 := by
  have upheld := session_upholds Scripted.leavesContainers attempts selfHolding
  exact ⟨Scripted.leavesContainers, upheld.readOnly rfl rfl rfl, upheld.length rfl⟩

end DotChain
