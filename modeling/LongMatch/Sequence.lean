import LongMatch.Checked
/-!
# LongMatch.Sequence: the steps of the description of a buffer

A buffer is described step by step, in order: a span of literal bytes, to be encoded some other
way, or a match.

A match says that `length` bytes at the destination repeat those at the source, which lies before
it. When the distance is below the length the two overlap, and the match has to be copied front to
back. Nothing stops a caller from writing down a match that points forward or out of range, so the
quantities that follow from it are checked.
-/

namespace LongMatch

/-- The positions from `start` up to, not including, `stop`. -/
structure Span where
  start : Nat
  stop : Nat
  deriving DecidableEq, Repr

/-- The number of positions; a span that stops before it starts has none. -/
def Span.length (span : Span) : Nat := span.stop - span.start

/-- The bytes at `destination` repeat those at `source`. -/
structure Match where
  source : Nat
  destination : Nat
  length : Nat
  deriving DecidableEq, Repr

namespace Match

/-- How far back the source is. -/
def distance (m : Match) : Except Fault Nat := Checked.sub m.destination m.source

/-- Whether the source runs into the destination. -/
def isOverlapping (m : Match) : Except Fault Bool := do
  return decide ((← m.distance) < m.length)

/-- Where the source ends. -/
def sourceEnd (m : Match) : Except Fault Nat := Checked.add m.source m.length

/-- Where the destination ends. -/
def destinationEnd (m : Match) : Except Fault Nat := Checked.add m.destination m.length

/-- The positions that are repeated. -/
def sourceSpan (m : Match) : Except Fault Span := do return ⟨m.source, ← m.sourceEnd⟩

/-- The positions that repeat them. -/
def destinationSpan (m : Match) : Except Fault Span := do
  return ⟨m.destination, ← m.destinationEnd⟩

end Match

/-- One step of the description of a buffer. -/
inductive Sequence where
  /-- Bytes to be encoded some other way. -/
  | literals (span : Span)
  /-- Bytes that repeat earlier ones. -/
  | copy (m : Match)
  deriving DecidableEq, Repr

namespace Sequence

/-- The positions the step accounts for. -/
def covered : Sequence → Except Fault Span
  | literals span => .ok span
  | copy m => m.destinationSpan

/-- The match of the step, if it is one. -/
def match? : Sequence → Option Match
  | literals _ => none
  | copy m => some m

end Sequence

end LongMatch
