import LongMatch.Chunk.Detector
/-!
# LongMatch.Proofs.Params.Sizes: the sizes that follow from valid settings

Every size that a scan derives from its settings is checked. In valid settings each of them has a
value, and the detector that a scan uses is one of them.
-/

namespace LongMatch.Params

/-- The detector of settings whose sizes all have a value. -/
def detector (params : Params) : Detector where
  stopMask := (2 ^ params.hashRateLog - 1).toUInt64
  minChunk := params.minChunk
  maxChunk := max (2 ^ (params.hashRateLog + greatestChunkLog)) (2 * params.minChunk)

/-- Settings that have a detector have this one, valid or not. -/
theorem detector_of_ofParams {params : Params} {detector : Detector}
    (h : Detector.ofParams params = .ok detector) : detector = params.detector := by
  obtain ⟨mask, hmask, h⟩ := Checked.bind_eq_ok_iff.mp h
  obtain ⟨greatest, hgreatest, h⟩ := Checked.bind_eq_ok_iff.mp h
  obtain ⟨rate, hrate, hmask⟩ := Checked.bind_eq_ok_iff.mp hmask
  obtain ⟨long, hlong, hgreatest⟩ := Checked.bind_eq_ok_iff.mp hgreatest
  obtain ⟨_, rfl⟩ := Checked.pow2_eq_ok_iff.mp hrate
  obtain ⟨_, rfl⟩ := Checked.pow2_eq_ok_iff.mp hlong
  cases hmask
  cases hgreatest
  cases h
  rfl

namespace Valid

variable {params : Params}

/-- The largest distance of a match is the window. -/
theorem maxDistance_eq (valid : params.Valid) :
    params.maxDistance = .ok (2 ^ params.windowLog) := by
  have hle : params.windowLog ≤ 31 := valid.windowLog.2
  exact Checked.pow2_of_lt (by omega)

theorem maxChunk_eq (valid : params.Valid) :
    params.maxChunk =
      .ok (max (2 ^ (params.hashRateLog + greatestChunkLog)) (2 * params.minChunk)) := by
  have hrate : params.hashRateLog ≤ 25 := valid.hashRateLog
  have hlt : params.hashRateLog + greatestChunkLog < 64 := by
    simp only [greatestChunkLog]
    omega
  rw [maxChunk, Checked.pow2_of_lt hlt]
  rfl

theorem stopMask_eq (valid : params.Valid) :
    params.stopMask = .ok (2 ^ params.hashRateLog - 1).toUInt64 := by
  have hrate : params.hashRateLog ≤ 25 := valid.hashRateLog
  rw [stopMask, Checked.pow2_of_lt (by omega)]
  rfl

theorem detector_eq (valid : params.Valid) :
    Detector.ofParams params = .ok params.detector := by
  rw [Detector.ofParams, valid.stopMask_eq, valid.maxChunk_eq]
  rfl

theorem minMatchLength_pos (valid : params.Valid) : 0 < params.minMatchLength := by
  have hle : 4 ≤ params.minMatchLength := valid.minMatchLength.1
  omega

end Valid

end LongMatch.Params
