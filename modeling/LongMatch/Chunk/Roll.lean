import LongMatch.Buffer.Cursor
import LongMatch.Gear
/-!
# LongMatch.Chunk.Roll: the rolling hash on its way through a buffer

A roll is a cursor, the hash of the bytes it has taken, and the length of the chunk it is in. The
length starts again at each cut, the hash does not; a restart elsewhere clears both. `advance`
takes bytes until a place where the chunk ends, or all bytes that are left.
-/

namespace LongMatch

/-- A rolling hash on its way through a buffer. -/
structure Roll (data : Buffer) where
  cursor : Cursor data
  hash : GearHash
  /-- The bytes taken since the last cut. -/
  length : Nat
  /-- The bytes hashed in all, restarts included: the work done. -/
  hashed : Nat

namespace Roll

variable {data : Buffer}

/-- A roll that has taken nothing. -/
def start (cursor : Cursor data) : Roll data := ⟨cursor, .zero, 0, 0⟩

/-- How far the roll has come. -/
def position (roll : Roll data) : Nat := roll.cursor.position

/-- The bytes that are left. -/
def remaining (roll : Roll data) : Nat := roll.cursor.remaining

/-- Whether no byte is left. -/
def atEnd (roll : Roll data) : Bool := roll.cursor.atEnd

/-- The roll after one more byte. -/
def next? (roll : Roll data) : Option (Roll data) :=
  match roll.cursor.next? with
  | none => none
  | some (byte, cursor) =>
    some ⟨cursor, roll.hash.advance byte, roll.length + 1, roll.hashed + 1⟩

/-- The roll at the start of a new chunk; the hash goes on. -/
def cut (roll : Roll data) : Roll data := { roll with length := 0 }

/-- The roll put at a cursor, with nothing taken there yet. -/
def restart (roll : Roll data) (cursor : Cursor data) : Roll data :=
  ⟨cursor, .zero, 0, roll.hashed⟩

theorem remaining_next? {roll after : Roll data} (h : roll.next? = some after) :
    after.remaining < roll.remaining := by
  simp only [next?] at h
  split at h
  · contradiction
  · next byte cursor taken =>
    cases h
    exact Cursor.remaining_next? taken

/-- Takes bytes up to the first place after a byte where `ends` holds. The flag says whether there
was one; without one all bytes are taken. -/
@[specialize] def advance (ends : Roll data → Bool) (roll : Roll data) : Roll data × Bool :=
  match _ : roll.next? with
  | none => (roll, false)
  | some after => if ends after then (after, true) else advance ends after
termination_by roll.remaining
decreasing_by exact remaining_next? ‹_›

@[simp] theorem remaining_cut (roll : Roll data) : roll.cut.remaining = roll.remaining := rfl

/-- A place where a chunk ends lies past at least one byte. -/
theorem remaining_advance {ends : Roll data → Bool} {roll after : Roll data}
    (h : roll.advance ends = (after, true)) : after.remaining < roll.remaining := by
  fun_induction advance ends roll with
  | case1 => simp at h
  | case2 roll next taken _ =>
    cases h
    exact remaining_next? taken
  | case3 roll next taken _ ih => exact Nat.lt_trans (ih h) (remaining_next? taken)

end Roll

end LongMatch
