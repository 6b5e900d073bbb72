import LongMatch.Params
/-!
# LongMatch.Proofs.Params.Adjust: derived settings are in range

Adjusting fills the zeros of settings in an order that matters: the rate is derived from the size of
the table in force, `inForce`, and the bucket is cut to that size last. The result has no zero that
would be derived again (`Filled`), so adjusting it changes nothing. Each derived value is in the
range that `validate` asks for if the window is, so whether adjusted settings are valid depends on
those given alone, field by field: `valid_adjust_iff`. The result is `adjusting_fits_validation`.
-/

namespace LongMatch.Params

variable {params : Params}

/-! ## What is filled in -/

/-- The power that gives the size of the table: the one given, or the one that stands in for a
zero. -/
def inForce (params : Params) : Nat :=
  if params.hashLog = 0 then max 6 (params.windowLog - 7) else params.hashLog

theorem windowLog_adjust (params : Params) : params.adjust.windowLog = params.windowLog := rfl

theorem hashLog_adjust (params : Params) : params.adjust.hashLog = params.inForce := rfl

theorem minMatchLength_adjust (params : Params) : params.adjust.minMatchLength =
    if params.minMatchLength = 0 then 64 else params.minMatchLength := rfl

theorem hashRateLog_adjust (params : Params) : params.adjust.hashRateLog =
    if params.hashRateLog = 0 then params.windowLog - params.inForce else params.hashRateLog := rfl

theorem bucketSizeLog_adjust (params : Params) : params.adjust.bucketSizeLog =
    min (if params.bucketSizeLog = 0 then 3 else params.bucketSizeLog) params.inForce := rfl

theorem inForce_pos (params : Params) : 0 < params.inForce := by
  unfold inForce
  split <;> omega

/-- Nothing is left to derive: a rate of zero would be derived as zero again. -/
structure Filled (params : Params) : Prop where
  hashLog_ne : params.hashLog ≠ 0
  minMatchLength_ne : params.minMatchLength ≠ 0
  bucketSizeLog_ne : params.bucketSizeLog ≠ 0
  bucketSizeLog_le : params.bucketSizeLog ≤ params.hashLog
  hashRateLog_eq : params.hashRateLog = 0 → params.windowLog ≤ params.hashLog

theorem filled_adjust (params : Params) : params.adjust.Filled := by
  have hpos := params.inForce_pos
  refine ⟨?_, ?_, ?_, Nat.min_le_right _ _, ?_⟩
  · rw [hashLog_adjust]
    omega
  · rw [minMatchLength_adjust]
    split <;> omega
  · rw [bucketSizeLog_adjust]
    split <;> omega
  · rw [hashRateLog_adjust, windowLog_adjust, hashLog_adjust]
    split <;> omega

/-- Where nothing is left to derive, adjusting changes nothing. -/
theorem Filled.adjust_eq (h : params.Filled) : params.adjust = params := by
  have hforce : params.inForce = params.hashLog := if_neg h.hashLog_ne
  have hlength : params.adjust.minMatchLength = params.minMatchLength := if_neg h.minMatchLength_ne
  have hrate : params.adjust.hashRateLog = params.hashRateLog := by
    rw [hashRateLog_adjust, hforce]
    split
    · next hzero =>
      have hwindow := h.hashRateLog_eq hzero
      omega
    · rfl
  have hbucket : params.adjust.bucketSizeLog = params.bucketSizeLog := by
    rw [bucketSizeLog_adjust, hforce, if_neg h.bucketSizeLog_ne]
    exact Nat.min_eq_left h.bucketSizeLog_le
  calc params.adjust
      = ⟨params.windowLog, params.inForce, params.adjust.minMatchLength,
          params.adjust.hashRateLog, params.adjust.bucketSizeLog⟩ := rfl
    _ = params := by rw [hforce, hlength, hrate, hbucket]

/-- The settings differ in fields that are zero in the first only, but for a bucket that is cut to
the size of the table. -/
structure Completes (params adjusted : Params) : Prop where
  windowLog_eq : adjusted.windowLog = params.windowLog
  hashLog_eq : params.hashLog ≠ 0 → adjusted.hashLog = params.hashLog
  minMatchLength_eq : params.minMatchLength ≠ 0 → adjusted.minMatchLength = params.minMatchLength
  hashRateLog_eq : params.hashRateLog ≠ 0 → adjusted.hashRateLog = params.hashRateLog
  bucketSizeLog_eq : params.bucketSizeLog ≠ 0 →
    adjusted.bucketSizeLog = min params.bucketSizeLog adjusted.hashLog

theorem completes_adjust (params : Params) : params.Completes params.adjust := by
  refine ⟨rfl, fun h => if_neg h, fun h => if_neg h, fun h => if_neg h, ?_⟩
  intro h
  rw [bucketSizeLog_adjust, if_neg h, hashLog_adjust]

/-- Every setting is below the bound. -/
structure Below (bound : Nat) (params : Params) : Prop where
  windowLog_lt : params.windowLog < bound
  hashLog_lt : params.hashLog < bound
  minMatchLength_lt : params.minMatchLength < bound
  hashRateLog_lt : params.hashRateLog < bound
  bucketSizeLog_lt : params.bucketSizeLog < bound

/-- A bound that leaves room for the values that stand in for zeros is kept. -/
theorem Below.adjust {bound : Nat} (h : params.Below bound) (hroom : 64 < bound) :
    params.adjust.Below bound := by
  have hwindow := h.windowLog_lt
  have hforce : params.inForce < bound := by
    have hhash := h.hashLog_lt
    unfold inForce
    split <;> omega
  refine ⟨hwindow, hforce, ?_, ?_, ?_⟩
  · have hlength := h.minMatchLength_lt
    rw [minMatchLength_adjust]
    split <;> omega
  · have hrate := h.hashRateLog_lt
    rw [hashRateLog_adjust]
    split <;> omega
  · rw [bucketSizeLog_adjust]
    exact Nat.lt_of_le_of_lt (Nat.min_le_right _ _) hforce

/-! ## The range of each field -/

theorem hashLog_adjust_inRange_iff (hwindow : params.windowLog ≤ 31) :
    6 ≤ params.adjust.hashLog ∧ params.adjust.hashLog ≤ 30 ↔
      params.hashLog = 0 ∨ 6 ≤ params.hashLog ∧ params.hashLog ≤ 30 := by
  rw [hashLog_adjust, inForce]
  split <;> omega

theorem minMatchLength_adjust_inRange_iff :
    4 ≤ params.adjust.minMatchLength ∧ params.adjust.minMatchLength ≤ 4096 ↔
      params.minMatchLength = 0 ∨ 4 ≤ params.minMatchLength ∧ params.minMatchLength ≤ 4096 := by
  rw [minMatchLength_adjust]
  split <;> omega

/-- The derived rate is the rarest in the largest window with the smallest table. -/
theorem hashRateLog_adjust_le_iff (hwindow : params.windowLog ≤ 31) (hforce : 6 ≤ params.inForce) :
    params.adjust.hashRateLog ≤ 25 ↔ params.hashRateLog ≤ 25 := by
  rw [hashRateLog_adjust]
  split <;> omega

/-- A bucket is cut to a table that is no larger than the largest bucket. -/
theorem bucketSizeLog_adjust_le_iff :
    params.adjust.bucketSizeLog ≤ params.adjust.bucketSizeLogLimit ↔
      params.bucketSizeLog ≤ 8 ∨ params.inForce ≤ 8 := by
  have hlimit : params.adjust.bucketSizeLogLimit = min 8 params.inForce := rfl
  rw [hlimit, bucketSizeLog_adjust]
  split <;> omega

/-- Adjusted settings are valid if the window is and each other field is, or is a zero that the
window gives a value; a bucket may be too large if the table is not. -/
theorem valid_adjust_iff :
    params.adjust.Valid ↔
      (10 ≤ params.windowLog ∧ params.windowLog ≤ 31) ∧
        (params.hashLog = 0 ∨ 6 ≤ params.hashLog ∧ params.hashLog ≤ 30) ∧
        (params.minMatchLength = 0 ∨ 4 ≤ params.minMatchLength ∧ params.minMatchLength ≤ 4096) ∧
        params.hashRateLog ≤ 25 ∧ (params.bucketSizeLog ≤ 8 ∨ params.inForce ≤ 8) := by
  constructor
  · rintro ⟨hwindow, hhash, hbucket, hrate, hlength⟩
    have hgreatest : params.windowLog ≤ 31 := hwindow.2
    have hforce : 6 ≤ params.inForce := hhash.1
    exact ⟨hwindow, (hashLog_adjust_inRange_iff hgreatest).mp hhash,
      minMatchLength_adjust_inRange_iff.mp hlength,
      (hashRateLog_adjust_le_iff hgreatest hforce).mp hrate, bucketSizeLog_adjust_le_iff.mp hbucket⟩
  · rintro ⟨hwindow, hhash, hlength, hrate, hbucket⟩
    have hhash' := (hashLog_adjust_inRange_iff hwindow.2).mpr hhash
    exact ⟨hwindow, hhash', bucketSizeLog_adjust_le_iff.mpr hbucket,
      (hashRateLog_adjust_le_iff hwindow.2 hhash'.1).mpr hrate,
      minMatchLength_adjust_inRange_iff.mpr hlength⟩

/-- Valid settings stay valid. -/
theorem Valid.adjust (valid : params.Valid) : params.adjust.Valid := by
  have hbucket : params.bucketSizeLog ≤ 8 := Nat.le_trans valid.bucketSizeLog (Nat.min_le_left _ _)
  exact valid_adjust_iff.mpr ⟨valid.windowLog, Or.inr valid.hashLog, Or.inr valid.minMatchLength,
    valid.hashRateLog, Or.inl hbucket⟩

/-- **Adjusting and validating fit together.** Adjusting a second time changes nothing. It fills
zeros, cuts the bucket to the size of the table and leaves all else alone, and settings of 32 bits
stay such. Valid settings stay valid, and whether settings become valid can be told from them field
by field; those derived from a window alone do if the window is in range. -/
theorem adjusting_fits_validation (params : Params) :
    params.adjust.adjust = params.adjust ∧ params.Completes params.adjust ∧
      (params.Below (2 ^ (32 : Nat)) → params.adjust.Below (2 ^ (32 : Nat))) ∧
      (params.validate = .ok () → params.adjust.validate = .ok ()) ∧
      (params.adjust.validate = .ok () ↔
        (10 ≤ params.windowLog ∧ params.windowLog ≤ 31) ∧
          (params.hashLog = 0 ∨ 6 ≤ params.hashLog ∧ params.hashLog ≤ 30) ∧
          (params.minMatchLength = 0 ∨ 4 ≤ params.minMatchLength ∧ params.minMatchLength ≤ 4096) ∧
          params.hashRateLog ≤ 25 ∧ (params.bucketSizeLog ≤ 8 ∨ params.inForce ≤ 8)) ∧
      ∀ windowLog, (forWindowLog windowLog).validate = .ok () ↔ 10 ≤ windowLog ∧ windowLog ≤ 31 := by
  simp only [validate_eq_ok_iff]
  refine ⟨params.filled_adjust.adjust_eq, params.completes_adjust, fun h => h.adjust (by decide),
    Valid.adjust, valid_adjust_iff, ?_⟩
  intro windowLog
  rw [forWindowLog, valid_adjust_iff]
  simp

/-! ### Valid settings with two zeros

A rate of zero and a bucket of one entry are in range, and adjusting derives them all the same. -/

def sparseParams : Params := ⟨20, 12, 32, 0, 0⟩

theorem zeros_in_range_are_filled :
    sparseParams.validate = .ok () ∧ sparseParams.Below (2 ^ (32 : Nat)) ∧
      sparseParams.adjust = ⟨20, 12, 32, 8, 3⟩ ∧ sparseParams.adjust.Below (2 ^ (32 : Nat)) ∧
        sparseParams.adjust.validate = .ok () := by
  have hvalid : sparseParams.validate = .ok () := rfl
  have hbelow : sparseParams.Below (2 ^ (32 : Nat)) := by constructor <;> decide
  obtain ⟨_, _, hwords, hkeeps, _⟩ := adjusting_fits_validation sparseParams
  exact ⟨hvalid, hbelow, by decide, hwords hbelow, hkeeps hvalid⟩

end LongMatch.Params
