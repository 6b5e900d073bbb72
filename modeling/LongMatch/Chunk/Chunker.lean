import LongMatch.Chunk.Detector
/-!
# LongMatch.Chunk.Chunker: a buffer cut into content-defined chunks

A chunker yields the ends of the chunks of a buffer, in order. The end of the buffer always ends
the last chunk, even one below the least length.
-/

namespace LongMatch

variable {data : Buffer}

/-- The cutting of a buffer, under way. -/
structure Chunker (data : Buffer) where
  detector : Detector
  roll : Roll data

namespace Chunker

/-- The cutting of a buffer from its start. -/
def start (detector : Detector) (data : Buffer) : Chunker data :=
  ⟨detector, .start ⟨0, Nat.zero_le _⟩⟩

/-- How far the cutting has come. -/
def position (chunker : Chunker data) : Nat := chunker.roll.position

/-- The end of the next chunk, unless the buffer is used up. -/
def next? (chunker : Chunker data) : Option Nat × Chunker data :=
  match chunker.roll.advance chunker.detector.closes with
  | (roll, true) => (some roll.position, { chunker with roll := roll.cut })
  | (roll, false) => (none, { chunker with roll })

theorem remaining_next? {chunker after : Chunker data} {stop : Nat}
    (h : chunker.next? = (some stop, after)) : after.roll.remaining < chunker.roll.remaining := by
  simp only [next?] at h
  split at h
  · next roll taken =>
    cases h
    exact roll.remaining_cut.symm ▸ Roll.remaining_advance taken
  · simp at h

/-- Appends the ends of all chunks from here on. -/
def collect (chunker : Chunker data) (stops : Array Nat) : Array Nat :=
  match _ : chunker.next? with
  | (none, _) => stops
  | (some stop, after) => after.collect (stops.push stop)
termination_by chunker.roll.remaining
decreasing_by exact remaining_next? ‹_›

end Chunker

/-- The ends of all chunks of a buffer, in order. -/
def Detector.chunkEnds (detector : Detector) (data : Buffer) : Array Nat :=
  (Chunker.start detector data).collect #[]

end LongMatch
