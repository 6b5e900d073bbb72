import LongMatch.Buffer
/-!
# LongMatch.Buffer.Run: how far the bytes at two positions agree

The forward run of two positions counts the equal bytes from them on, up to the end of the
buffer; the backward run counts the equal bytes just before them, down to a floor for each. The
source may run into the destination: each byte is compared on its own.

Both are `countFrom`, whose answer is pinned by `countFrom_eq_ok_iff`.
-/

namespace LongMatch.Buffer

/-- Counts on from `count` while the step of that number passes, for at most `room` steps. -/
@[specialize] def countFrom (passes : Nat → Except Fault Bool) :
    (room count : Nat) → Except Fault Nat
  | 0, count => .ok count
  | room + 1, count =>
    match passes count with
    | .error fault => .error fault
    | .ok false => .ok count
    | .ok true => countFrom passes room (count + 1)

/-- The length of the common run that starts at two positions and stops at the buffer's end. The
source starts before the destination, and the destination is in the buffer or at its end. -/
def forwardRun (data : Buffer) (source destination : Nat) : Except Fault Nat :=
  if destination ≤ source then .error .unordered
  else if data.size < destination then .error .outOfBounds
  else
    countFrom (fun k => data.sameAt (source + k) (destination + k)) (data.size - destination) 0

/-- The length of the common run that ends just before two positions, with neither side stepping
below its floor. -/
def backwardRun (data : Buffer) (source destination sourceFloor destinationFloor : Nat) :
    Except Fault Nat :=
  countFrom (fun k => data.sameAt (source - (k + 1)) (destination - (k + 1)))
    (min (source - sourceFloor) (destination - destinationFloor)) 0

/-- A count stops at the first step that does not pass, or when the room is used up. -/
theorem countFrom_eq_ok_iff {passes : Nat → Except Fault Bool} {room count n : Nat} :
    countFrom passes room count = .ok n ↔
      count ≤ n ∧ n ≤ count + room ∧ (∀ k, count ≤ k → k < n → passes k = .ok true) ∧
        (n < count + room → passes n = .ok false) := by
  induction room generalizing count with
  | zero =>
    simp only [countFrom, Except.ok.injEq]
    constructor
    · rintro rfl
      exact ⟨Nat.le_refl _, Nat.le_refl _, fun k _ _ => by omega, fun _ => by omega⟩
    · rintro ⟨low, high, _, _⟩
      omega
  | succ room ih =>
    simp only [countFrom]
    split
    case h_1 fault h =>
      refine ⟨nofun, fun ⟨_, _, passed, stopped⟩ => ?_⟩
      by_cases hn : n = count
      · subst hn
        exact absurd (stopped (by omega)) (by simp [h])
      · exact absurd (passed count (by omega) (by omega)) (by simp [h])
    case h_2 h =>
      simp only [Except.ok.injEq]
      refine ⟨fun eq => ?_, fun ⟨_, _, passed, _⟩ => ?_⟩
      · subst eq
        exact ⟨by omega, by omega, fun k _ _ => by omega, fun _ => h⟩
      · by_cases hn : n = count
        · exact hn.symm
        · exact absurd (passed count (by omega) (by omega)) (by simp [h])
    case h_3 h =>
      rw [ih]
      refine ⟨
        fun ⟨low, high, passed, stopped⟩ =>
          ⟨by omega, by omega, fun k _ _ => ?_, fun _ => ?_⟩,
        fun ⟨low, high, passed, stopped⟩ => ⟨?_, by omega, fun k _ _ => ?_, fun _ => ?_⟩⟩
      · by_cases hk : k = count
        · exact hk ▸ h
        · exact passed k (by omega) (by omega)
      · exact stopped (by omega)
      · by_cases hn : n = count
        · subst hn
          exact absurd (stopped (by omega)) (by simp [h])
        · omega
      · exact passed k (by omega) (by omega)
      · exact stopped (by omega)

/-- A count fails exactly at a step that does, when all steps before it pass. -/
theorem countFrom_eq_error_iff {passes : Nat → Except Fault Bool} {room count : Nat}
    {fault : Fault} :
    countFrom passes room count = .error fault ↔
      ∃ n, count ≤ n ∧ n < count + room ∧ (∀ k, count ≤ k → k < n → passes k = .ok true) ∧
        passes n = .error fault := by
  induction room generalizing count with
  | zero =>
    simp only [countFrom]
    constructor
    · intro h
      cases h
    · -- no step is made without room
      rintro ⟨n, low, high, _⟩
      omega
  | succ room ih =>
    simp only [countFrom]
    split
    case h_1 f h =>
      simp only [Except.error.injEq]
      refine ⟨fun eq => ⟨count, by omega, by omega, fun k _ _ => by omega, eq ▸ h⟩,
        fun ⟨n, _, _, passed, failed⟩ => ?_⟩
      by_cases hn : n = count
      · simp_all
      · exact absurd (passed count (by omega) (by omega)) (by simp [h])
    case h_2 h =>
      refine ⟨nofun, fun ⟨n, _, _, passed, failed⟩ => ?_⟩
      by_cases hn : n = count
      · simp_all
      · exact absurd (passed count (by omega) (by omega)) (by simp [h])
    case h_3 h =>
      rw [ih]
      refine ⟨fun ⟨n, _, _, passed, failed⟩ => ⟨n, by omega, by omega, fun k _ _ => ?_, failed⟩,
        fun ⟨n, _, _, passed, failed⟩ => ?_⟩
      · by_cases hk : k = count
        · exact hk ▸ h
        · exact passed k (by omega) (by omega)
      · by_cases hn : n = count
        · simp_all
        · exact ⟨n, by omega, by omega, fun k _ _ => passed k (by omega) (by omega), failed⟩

end LongMatch.Buffer
