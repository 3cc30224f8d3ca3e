import DotChain.Access.Method

/-!
# Faults of methods

Only entering a node can find that nodes nest too deep. Main statement: `Method.ordinary_builtIn`, no
method that is computed fails by that fault, whatever it is called on and with.
-/

namespace DotChain

variable {α β : Type}

/-- Whether a fault is another one than that nodes nest too deep. -/
def Fault.Ordinary : Fault → Prop
  | recursionLimit _ => False
  | _ => True

namespace Method

/-- A method that is computed fails by ordinary faults only. -/
def FailsOrdinarily (result : Except Fault α) : Prop :=
  ∀ fault, result = .error fault → fault.Ordinary

private theorem ordinary_ok (result : α) : FailsOrdinarily (.ok result) := by
  intro fault failed
  cases failed

private theorem ordinary_error {fault : Fault} (ordinary : fault.Ordinary) :
    FailsOrdinarily (.error fault : Except Fault α) := by
  intro other failed
  cases failed
  exact ordinary

private theorem ordinary_bind {first : Except Fault α} {next : α → Except Fault β}
    (before : FailsOrdinarily first) (after : ∀ value, FailsOrdinarily (next value)) :
    FailsOrdinarily (first >>= next) := by
  cases first with
  | error cause => exact ordinary_error (before cause rfl)
  | ok value => exact after value

private theorem ordinary_nullary (method : String) (args : List Value) (result : Value) :
    FailsOrdinarily (nullary method args result) := by
  unfold nullary
  split
  · exact ordinary_ok result
  · exact ordinary_error trivial

private theorem ordinary_unary (method : String) (args : List Value)
    {result : Value → Except Fault Value} (inside : ∀ arg, FailsOrdinarily (result arg)) :
    FailsOrdinarily (unary method args result) := by
  unfold unary
  split
  · exact inside _
  · exact ordinary_error trivial

private theorem ordinary_intArg (heap : Heap) (method : String) (arg : Value) :
    FailsOrdinarily (intArg heap method arg) := by
  unfold intArg
  split
  · exact ordinary_ok _
  · exact ordinary_error trivial

private theorem ordinary_slice (text : List Char) (first last : Int64) :
    FailsOrdinarily (slice text first last) := by
  unfold slice
  split
  · exact ordinary_error trivial
  · exact ordinary_error trivial
  · split
    · exact ordinary_error trivial
    · exact ordinary_ok _

private theorem ordinary_sliceArgs (heap : Heap) (length : Nat) (args : List Value) :
    FailsOrdinarily (sliceArgs heap length args) := by
  unfold sliceArgs
  dsimp only
  split
  · exact ordinary_bind (ordinary_intArg heap _ _) fun first => ordinary_ok _
  · refine ordinary_bind (ordinary_intArg heap _ _) fun first => ?_
    exact ordinary_bind (ordinary_intArg heap _ _) fun last => ordinary_ok _
  · exact ordinary_error trivial

private theorem ordinary_substring (heap : Heap) (text : String) (args : List Value) :
    FailsOrdinarily (substring heap text args) :=
  ordinary_bind (ordinary_sliceArgs heap _ args) fun (first, last) =>
    ordinary_bind (ordinary_slice _ first last) fun _ => ordinary_ok _

private theorem ordinary_ofText (heap : Heap) (text method : String) (args : List Value) :
    FailsOrdinarily (ofText heap text method args) := by
  unfold ofText
  split
  case h_6 => exact ordinary_substring heap text args
  case h_7 => exact ordinary_error trivial
  all_goals exact ordinary_nullary _ args _

private theorem ordinary_ofList (heap : Heap) (id : ListId) (method : String) (args : List Value) :
    FailsOrdinarily (ofList heap id method args) := by
  unfold ofList
  dsimp only
  split
  · exact ordinary_nullary _ args _
  · exact ordinary_nullary _ args _
  · refine ordinary_unary _ args fun arg => ?_
    refine ordinary_bind (ordinary_intArg heap _ arg) fun i => ?_
    split
    · exact ordinary_ok _
    · exact ordinary_error trivial
  · exact ordinary_unary _ args fun arg => ordinary_ok _
  · exact ordinary_error trivial

private theorem ordinary_ofObject (heap : Heap) (id : ObjectId) (method : String)
    (args : List Value) : FailsOrdinarily (ofObject heap id method args) := by
  unfold ofObject
  split
  · exact ordinary_nullary _ args _
  · refine ordinary_unary _ args fun arg => ?_
    split
    · exact ordinary_ok _
    · exact ordinary_error trivial
  · exact ordinary_error trivial

theorem ordinary_builtIn (heap : Heap) (target : Value) (method : String) (args : List Value) :
    FailsOrdinarily (builtIn heap target method args) := by
  unfold builtIn
  split
  · exact ordinary_error trivial
  · exact ordinary_ofText heap _ method args
  · exact ordinary_ofList heap _ method args
  · exact ordinary_ofObject heap _ method args
  · exact ordinary_error trivial

end Method

end DotChain
