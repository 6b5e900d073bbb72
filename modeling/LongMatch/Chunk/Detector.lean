import LongMatch.Chunk.Roll
import LongMatch.Params
/-!
# LongMatch.Chunk.Detector: where content-defined chunks end

A natural split is a place where the masked bits of the rolling hash are all zero. Splits depend
on nearby bytes only, so an insertion moves the splits around it and leaves the others in place. A
detector adds limits on the length of a chunk: no split before the least length, and a forced one
at the greatest.
-/

namespace LongMatch

/-- The rule that ends chunks. -/
structure Detector where
  stopMask : UInt64
  minChunk : Nat
  maxChunk : Nat
  deriving DecidableEq, Repr

namespace Detector

/-- The rule for the given settings. -/
def ofParams (params : Params) : Except Fault Detector := do
  let stopMask ← params.stopMask
  let maxChunk ← params.maxChunk
  return { stopMask, minChunk := params.minChunk, maxChunk }

/-- Whether the hash alone asks for a split. -/
def isBoundary (detector : Detector) (hash : GearHash) : Bool :=
  hash.value &&& detector.stopMask == 0

/-- Whether a chunk of `length` bytes ends here. Past the least length it ends at a natural split,
at the greatest length, or at the end of the buffer. -/
def shouldSplit (detector : Detector) (hash : GearHash) (length : Nat) (atEnd : Bool) : Bool :=
  detector.minChunk ≤ length &&
    (atEnd || detector.maxChunk ≤ length || detector.isBoundary hash)

/-- Whether the chunk in hand ends where the roll is, if it is long enough. -/
def splits {data : Buffer} (detector : Detector) (roll : Roll data) : Bool :=
  detector.shouldSplit roll.hash roll.length roll.atEnd

/-- Whether the chunk in hand ends where the roll is; at the end of the buffer it does, however
short. -/
def closes {data : Buffer} (detector : Detector) (roll : Roll data) : Bool :=
  roll.atEnd || detector.splits roll

end Detector

end LongMatch
