/-!
# Spans

A span is the half-open range of bytes that a piece of source text occupies. Spans annotate
trees and errors; nothing is ever decided by one.
-/

namespace DotChain

/-- A range of byte offsets: `start` belongs to the range, `stop` does not. -/
structure Span where
  start : Nat
  stop : Nat
deriving DecidableEq, Inhabited

namespace Span

/-- The greatest offset that a span of a source text may hold. -/
def offsetLimit : Nat := 4294967295

/-- Why a range of offsets is no span: one of its ends lies past `offsetLimit`. -/
inductive RangeError where
  | startTooLarge (offset : Nat)
  | stopTooLarge (offset : Nat)
deriving DecidableEq

/-- What a user is told about a range that is no span. -/
def RangeError.message : RangeError → String
  | .startTooLarge offset => s!"span start {offset} exceeds u32::MAX"
  | .stopTooLarge offset => s!"span end {offset} exceeds u32::MAX"

/-- The span of a range of offsets. The start is checked before the end. -/
def ofRange (start stop : Nat) : Except RangeError Span :=
  if offsetLimit < start then .error (.startTooLarge start)
  else if offsetLimit < stop then .error (.stopTooLarge stop)
  else .ok ⟨start, stop⟩

/-- The span of a node that was built without a source text. -/
def unplaced : Span := ⟨0, 0⟩

/-- The empty span at an offset. -/
def point (offset : Nat) : Span := ⟨offset, offset⟩

/-- The number of bytes covered; none when the ends are reversed. -/
def length (span : Span) : Nat := span.stop - span.start

/-- A span is empty when its end does not lie after its start. -/
def isEmpty (span : Span) : Bool := decide (span.stop ≤ span.start)

/-- The smallest span that covers both. -/
def merge (left right : Span) : Span := ⟨min left.start right.start, max left.stop right.stop⟩

/-- The same range further back in a text. -/
def shift (offset : Nat) (span : Span) : Span := ⟨offset + span.start, offset + span.stop⟩

/-- A span is written as its two offsets. -/
def render (span : Span) : String := s!"{span.start}..{span.stop}"

@[simp] theorem merge_self (span : Span) : span.merge span = span := by
  simp [merge]

theorem shift_merge (offset : Nat) (left right : Span) :
    (left.merge right).shift offset = (left.shift offset).merge (right.shift offset) := by
  simp only [merge, shift, Span.mk.injEq]
  omega

/-- A range is a span exactly when both of its ends are offsets. -/
theorem ofRange_eq_ok_iff (start stop : Nat) (span : Span) :
    ofRange start stop = .ok span ↔ span = ⟨start, stop⟩ ∧ start ≤ offsetLimit ∧ stop ≤ offsetLimit := by
  unfold ofRange
  split
  · simp; omega
  · split
    · simp; omega
    · simp [eq_comm]; omega

end Span

end DotChain
