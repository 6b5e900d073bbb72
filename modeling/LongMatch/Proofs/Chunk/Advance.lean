import LongMatch.Chunk.Chunker
/-!
# LongMatch.Proofs.Chunk.Advance: how far a roll gets

Every byte that a roll takes moves its position, the length of its chunk and its work by one.
`advance_eq_true` and `advance_eq_false` say this of a whole advance, with the reason why it
stopped; `le_size_of_mem_chunkEnds` follows for the ends of chunks, and `exists_split` says when an
advance does stop and how long the chunk gets.
-/

namespace LongMatch

namespace Roll

variable {data : Buffer} {roll after : Roll data} {ends : Roll data → Bool}

/-- `after` is `roll` after `count` more bytes of the same chunk. -/
structure Ahead (roll after : Roll data) (count : Nat) : Prop where
  position_eq : after.position = roll.position + count
  length_eq : after.length = roll.length + count
  hashed_eq : after.hashed = roll.hashed + count

theorem position_le (roll : Roll data) : roll.position ≤ data.size := roll.cursor.position_le

theorem Ahead.refl (roll : Roll data) : roll.Ahead roll 0 := ⟨rfl, rfl, rfl⟩

theorem Ahead.trans {mid : Roll data} {m n : Nat} (h : roll.Ahead mid m) (h' : mid.Ahead after n) :
    roll.Ahead after (m + n) := by
  obtain ⟨hp, hl, hh⟩ := h
  obtain ⟨hp', hl', hh'⟩ := h'
  exact ⟨by omega, by omega, by omega⟩

theorem ahead_of_next? (h : roll.next? = some after) : roll.Ahead after 1 := by
  unfold next? at h
  split at h
  · cases h
  · next byte cursor htaken =>
    cases h
    exact ⟨(Cursor.next?_eq_some htaken).2, rfl, rfl⟩

theorem position_of_next?_eq_none (h : roll.next? = none) : roll.position = data.size := by
  unfold next? at h
  split at h
  · next htaken => exact Cursor.next?_eq_none_iff.mp htaken
  · cases h

/-- While bytes are left, the next one is hashed. -/
theorem next?_of_lt (h : roll.position < data.size) :
    roll.next? = some ⟨⟨roll.position + 1, h⟩, roll.hash.advance data[roll.position],
      roll.length + 1, roll.hashed + 1⟩ := by
  have htaken : roll.cursor.next? = some (data[roll.position], ⟨roll.position + 1, h⟩) := dif_pos h
  rw [next?, htaken]

theorem next?_of_atEnd (h : roll.atEnd = true) : roll.next? = none := by
  have hnone : roll.cursor.next? = none :=
    Cursor.next?_eq_none_iff.mpr (Cursor.atEnd_iff.mp h)
  rw [next?, hnone]

/-- Without a byte an advance ends where it is. -/
theorem advance_of_none (h : roll.next? = none) : roll.advance ends = (roll, false) := by
  rw [advance]
  split
  · rfl
  · next next hsome =>
    rw [h] at hsome
    cases hsome

/-- An advance ends with the first byte that ends the chunk. -/
theorem advance_of_ends (h : roll.next? = some after) (hend : ends after = true) :
    roll.advance ends = (after, true) := by
  rw [advance]
  split
  · next hnone =>
    rw [h] at hnone
    cases hnone
  · next next hsome =>
    rw [h] at hsome
    cases hsome
    rw [if_pos hend]

/-- A byte that ends no chunk is a part of the advance. -/
theorem advance_of_next? (h : roll.next? = some after) (hgo : ends after = false) :
    roll.advance ends = after.advance ends := by
  rw [advance]
  split
  · next hnone =>
    rw [h] at hnone
    cases hnone
  · next next hsome =>
    rw [h] at hsome
    cases hsome
    rw [hgo]
    rfl

/-- An advance that finds an end stops just past at least one byte. -/
theorem advance_eq_true (h : roll.advance ends = (after, true)) :
    ∃ count, 0 < count ∧ roll.Ahead after count ∧ ends after = true := by
  fun_induction advance ends roll with
  | case1 roll hnone => cases h
  | case2 roll next hnext hend =>
    cases h
    exact ⟨1, Nat.one_pos, ahead_of_next? hnext, hend⟩
  | case3 roll next hnext hgo ih =>
    obtain ⟨count, hpos, hahead, hend⟩ := ih h
    exact ⟨1 + count, by omega, (ahead_of_next? hnext).trans hahead, hend⟩

/-- An advance that finds no end takes all bytes. -/
theorem advance_eq_false (h : roll.advance ends = (after, false)) :
    (∃ count, roll.Ahead after count) ∧ after.position = data.size := by
  fun_induction advance ends roll with
  | case1 roll hnone =>
    cases h
    exact ⟨⟨0, Ahead.refl _⟩, position_of_next?_eq_none hnone⟩
  | case2 roll next hnext hend => cases h
  | case3 roll next hnext hgo ih =>
    obtain ⟨⟨count, hahead⟩, hsize⟩ := ih h
    exact ⟨⟨1 + count, (ahead_of_next? hnext).trans hahead⟩, hsize⟩

end Roll

/-- A split leaves at least the shortest chunk behind it. -/
theorem Detector.minChunk_le_of_splits {data : Buffer} {detector : Detector} {roll : Roll data}
    (h : detector.splits roll = true) : detector.minChunk ≤ roll.length := by
  unfold splits shouldSplit at h
  rw [Bool.and_eq_true] at h
  exact of_decide_eq_true h.1

/-- A chunk with room for the least length comes to a split, if need be at the greatest length. -/
theorem Roll.exists_split {data : Buffer} {detector : Detector} (roll : Roll data)
    (hlimits : detector.minChunk ≤ detector.maxChunk) (hmore : roll.position < data.size)
    (hshort : roll.length < detector.maxChunk)
    (hroom : roll.position + detector.minChunk ≤ data.size + roll.length) :
    ∃ after, roll.advance detector.splits = (after, true) ∧
      after.length ≤ detector.maxChunk := by
  obtain ⟨next, hnext⟩ : ∃ next, roll.next? = some next := ⟨_, next?_of_lt hmore⟩
  obtain ⟨hposition, hlength, _⟩ := ahead_of_next? hnext
  cases hsplits : detector.splits next with
  | true => exact ⟨next, advance_of_ends hnext hsplits, by omega⟩
  | false =>
    -- past the least length, neither the end of the buffer nor the greatest length is reached
    have hgo : detector.minChunk ≤ next.length →
        next.position < data.size ∧ next.length < detector.maxChunk := by
      intro hlong
      rw [Detector.splits, Detector.shouldSplit, decide_eq_true hlong, Bool.true_and,
        Bool.or_eq_false_iff, Bool.or_eq_false_iff] at hsplits
      obtain ⟨⟨hatEnd, hmax⟩, _⟩ := hsplits
      have hne : next.position ≠ data.size := by
        intro hsize
        cases hatEnd.symm.trans (Cursor.atEnd_iff.mpr hsize)
      exact ⟨Nat.lt_of_le_of_ne next.position_le hne, Nat.lt_of_not_le (of_decide_eq_false hmax)⟩
    have hless : next.remaining < roll.remaining := remaining_next? hnext
    obtain ⟨after, hadvance, hle⟩ := exists_split next hlimits (by omega) (by omega) (by omega)
    exact ⟨after, (advance_of_next? hnext hsplits).trans hadvance, hle⟩
termination_by roll.remaining

namespace Chunker

variable {data : Buffer} {chunker after : Chunker data}

theorem le_size_of_next? {stop : Nat} (h : chunker.next? = (some stop, after)) :
    stop ≤ data.size := by
  unfold next? at h
  split at h
  · next roll hadvance =>
    cases h
    exact roll.position_le
  · cases h

theorem le_size_of_mem_collect {stops : Array Nat} {stop : Nat}
    (h : stop ∈ chunker.collect stops) : stop ∈ stops ∨ stop ≤ data.size := by
  fun_induction collect chunker stops with
  | case1 chunker stops after hnone => exact Or.inl h
  | case2 chunker stops last after hnext ih =>
    -- what is collected was there before, is the end just met, or comes later
    rcases ih h with hmem | hle
    · rcases Array.mem_push.mp hmem with hold | hlast
      · exact Or.inl hold
      · exact Or.inr (hlast ▸ le_size_of_next? hnext)
    · exact Or.inr hle

end Chunker

theorem Detector.le_size_of_mem_chunkEnds {detector : Detector} {data : Buffer} {stop : Nat}
    (h : stop ∈ detector.chunkEnds data) : stop ≤ data.size := by
  rcases Chunker.le_size_of_mem_collect h with hmem | hle
  · cases Array.not_mem_empty stop hmem
  · exact hle

end LongMatch
