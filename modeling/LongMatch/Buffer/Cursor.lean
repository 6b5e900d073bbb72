import LongMatch.Buffer
import LongMatch.Error
/-!
# LongMatch.Buffer.Cursor: a position that moves over a buffer

A cursor of a buffer is a position from its start to its end, both included, so a cursor in
hand is always in range. Reading takes the byte at the cursor and steps past it; moving to a
position beyond the end is refused and leaves the cursor where it is.
-/

namespace LongMatch

/-- A position in a buffer, its end included. -/
structure Cursor (data : Buffer) where
  position : Nat
  position_le : position ≤ data.size

namespace Cursor

variable {data : Buffer}

@[ext] theorem ext {a b : Cursor data} (h : a.position = b.position) : a = b := by
  cases a; cases b; simp_all

/-- A cursor at a position the caller vouches for. -/
def start (data : Buffer) (position : Nat) : Except Fault (Cursor data) :=
  if h : position ≤ data.size then .ok ⟨position, h⟩ else .error .outOfBounds

/-- The byte under the cursor and the cursor past it, unless the cursor is at the end. -/
def next? (cursor : Cursor data) : Option (UInt8 × Cursor data) :=
  if h : cursor.position < data.size then some (data[cursor.position], ⟨cursor.position + 1, h⟩)
  else none

/-- The cursor moved to a position. -/
def seek (_cursor : Cursor data) (position : Nat) : Except Error (Cursor data) :=
  if h : position ≤ data.size then .ok ⟨position, h⟩
  else .error (.dataOutOfBounds position data.size)

/-- The number of bytes from the cursor to the end. -/
def remaining (cursor : Cursor data) : Nat := data.size - cursor.position

/-- Whether no byte is left. -/
def atEnd (cursor : Cursor data) : Bool := cursor.position == data.size

@[simp] theorem atEnd_iff {cursor : Cursor data} :
    cursor.atEnd = true ↔ cursor.position = data.size := by
  simp [atEnd]

theorem next?_eq_none_iff {cursor : Cursor data} :
    cursor.next? = none ↔ cursor.position = data.size := by
  have := cursor.position_le
  by_cases h : cursor.position < data.size
  · simp [next?, h, Nat.ne_of_lt h]
  · simp only [next?, dif_neg h, true_iff]
    omega

theorem next?_eq_some {cursor after : Cursor data} {byte : UInt8}
    (h : cursor.next? = some (byte, after)) :
    data[cursor.position]? = some byte ∧ after.position = cursor.position + 1 := by
  unfold next? at h
  split at h
  · next hlt =>
    cases h
    exact ⟨Array.getElem?_eq_getElem hlt, rfl⟩
  · cases h

theorem remaining_next? {cursor after : Cursor data} {byte : UInt8}
    (h : cursor.next? = some (byte, after)) : after.remaining < cursor.remaining := by
  have := next?_eq_some h
  have := after.position_le
  simp only [remaining]
  omega

theorem seek_eq_ok_iff {cursor moved : Cursor data} {position : Nat} :
    cursor.seek position = .ok moved ↔ moved.position = position := by
  have := moved.position_le
  simp only [seek]
  split
  · simp only [Except.ok.injEq, Cursor.ext_iff]
    exact eq_comm
  · simp only [reduceCtorEq, false_iff]
    omega

end Cursor

end LongMatch
