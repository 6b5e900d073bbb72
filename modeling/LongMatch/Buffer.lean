import LongMatch.Checked
/-!
# LongMatch.Buffer: the bytes that are scanned

A buffer is an array of bytes. Reads and slices are checked: outside the buffer they are a fault.
-/

namespace LongMatch

/-- The bytes that are scanned. -/
abbrev Buffer := Array UInt8

namespace Buffer

/-- The byte at a position. -/
def byteAt (data : Buffer) (position : Nat) : Except Fault UInt8 :=
  match data[position]? with
  | some byte => .ok byte
  | none => .error .outOfBounds

/-- The bytes from `start` up to, not including, `stop`. -/
def slice (data : Buffer) (start stop : Nat) : Except Fault Buffer :=
  if start ≤ stop ∧ stop ≤ data.size then .ok (data.extract start stop) else .error .outOfBounds

/-- Whether two positions hold the same byte. -/
def sameAt (data : Buffer) (i j : Nat) : Except Fault Bool := do
  return (← data.byteAt i) == (← data.byteAt j)

theorem byteAt_of_lt {data : Buffer} {i : Nat} (h : i < data.size) :
    data.byteAt i = .ok data[i] := by
  simp [byteAt, h]

theorem byteAt_eq_error_iff {data : Buffer} {i : Nat} {fault : Fault} :
    data.byteAt i = .error fault ↔ data.size ≤ i ∧ fault = .outOfBounds := by
  by_cases h : i < data.size
  · simp [byteAt, h, Nat.not_le.mpr h]
  · simp [byteAt, h, eq_comm, Nat.not_lt.mp h]

theorem slice_eq_ok_iff {data part : Buffer} {start stop : Nat} :
    data.slice start stop = .ok part ↔
      (start ≤ stop ∧ stop ≤ data.size) ∧ data.extract start stop = part := by
  by_cases h : start ≤ stop ∧ stop ≤ data.size <;> simp [slice, h]

theorem sameAt_of_lt {data : Buffer} {i j : Nat} (hi : i < data.size) (hj : j < data.size) :
    data.sameAt i j = .ok (data[i] == data[j]) := by
  simp [sameAt, byteAt_of_lt hi, byteAt_of_lt hj]

/-- A comparison fails exactly when one of its positions is outside the buffer. -/
theorem sameAt_eq_error_iff {data : Buffer} {i j : Nat} {fault : Fault} :
    data.sameAt i j = .error fault ↔
      (data.size ≤ i ∨ data.size ≤ j) ∧ fault = .outOfBounds := by
  simp only [sameAt, Checked.bind_eq_error_iff, byteAt_eq_error_iff]
  constructor
  · rintro (⟨hi, rfl⟩ | ⟨_, _, ⟨hj, rfl⟩ | ⟨_, _, hpure⟩⟩)
    · exact ⟨Or.inl hi, rfl⟩
    · exact ⟨Or.inr hj, rfl⟩
    · cases hpure
  · rintro ⟨hout, rfl⟩
    by_cases hi : i < data.size
    · -- the first position is read, so the second is the one outside
      exact Or.inr ⟨data[i], byteAt_of_lt hi, Or.inl ⟨by omega, rfl⟩⟩
    · exact Or.inl ⟨Nat.le_of_not_lt hi, rfl⟩

end Buffer

end LongMatch
