import LongMatch.Proofs.Chunk.Ends
/-!
# LongMatch.Proofs.Chunk.Greedy: the ends of chunks without the loop

Where the chunks of a buffer end can be said without a roll: each chunk ends at the first place
after its start where it may, `Detector.EndsAt`, and the hash that counts there is the one of all
bytes before the place. A list of ends made so is a `Detector.Segments`. It is determined by the
place it begins at, and the chunker yields it: `segments_chunkEnds`. The loop and the rule meet in
`Roll.Within`, a roll in the chunk that began at some place.
-/

namespace LongMatch

/-! ## The rule -/

namespace Detector

/-- A chunk that begins at `start` may end at `stop`: the buffer ends there, or the chunk has the
least length and has the greatest one or meets a natural split. -/
structure MayEnd (detector : Detector) (data : Buffer) (start stop : Nat) : Prop where
  lt : start < stop
  le_size : stop ≤ data.size
  rule : stop = data.size ∨
    detector.minChunk ≤ stop - start ∧ (detector.maxChunk ≤ stop - start ∨
      detector.isBoundary (.calculate (data.extract 0 stop)) = true)

/-- A chunk that begins at `start` ends at `stop`, the first place where it may. -/
structure EndsAt (detector : Detector) (data : Buffer) (start stop : Nat) : Prop extends
    detector.MayEnd data start stop where
  least : ∀ mid, detector.MayEnd data start mid → stop ≤ mid

/-- The ends of all chunks from `start` on, in order. -/
inductive Segments (detector : Detector) (data : Buffer) : Nat → List Nat → Prop
  | nil : Segments detector data data.size []
  | cons {start stop : Nat} {stops : List Nat} :
      detector.EndsAt data start stop → Segments detector data stop stops →
      Segments detector data start (stop :: stops)

variable {detector : Detector} {data : Buffer} {start stop other : Nat} {stops : List Nat}

theorem EndsAt.eq (h : detector.EndsAt data start stop) (h' : detector.EndsAt data start other) :
    stop = other :=
  Nat.le_antisymm (h.least other h'.toMayEnd) (h'.least stop h.toMayEnd)

namespace Segments

theorem lt_of_mem (h : detector.Segments data start stops) (hmem : stop ∈ stops) :
    start < stop := by
  induction h with
  | nil => cases hmem
  | cons hend _ ih =>
    rcases List.mem_cons.mp hmem with rfl | hrest
    · exact hend.lt
    · exact Nat.lt_trans hend.lt (ih hrest)

/-- From an end on, the ends that follow are those of the chunks that begin there. -/
theorem exists_from (h : detector.Segments data start stops) (hmem : stop ∈ stops) :
    ∃ rest, detector.Segments data stop rest ∧ ∀ later, stop < later →
      (later ∈ stops ↔ later ∈ rest) := by
  induction h with
  | nil => cases hmem
  | @cons start first stops hend hrest ih =>
    rcases List.mem_cons.mp hmem with rfl | hmem
    · refine ⟨stops, hrest, ?_⟩
      intro later hlt
      simp [Nat.ne_of_gt hlt]
    · obtain ⟨rest, hsegments, hiff⟩ := ih hmem
      refine ⟨rest, hsegments, ?_⟩
      intro later hlt
      have hfirst := hrest.lt_of_mem hmem
      rw [← hiff later hlt, List.mem_cons]
      simp [show later ≠ first by omega]

end Segments

end Detector

/-! ## The loop -/

namespace Roll

variable {data : Buffer} {start : Nat} {roll after : Roll data} {detector : Detector}

/-- The roll is in the chunk that began at `start`, and its hash is that of all bytes before. -/
structure Within (start : Nat) (roll : Roll data) : Prop where
  position_eq : roll.position = start + roll.length
  hash_eq : roll.hash = .calculate (data.extract 0 roll.position)

/-- A roll that has taken nothing is in the first chunk. -/
theorem within_start (data : Buffer) :
    (Roll.start (⟨0, Nat.zero_le _⟩ : Cursor data)).Within 0 := by
  refine ⟨rfl, ?_⟩
  show GearHash.zero = .calculate (data.extract 0 0)
  simp [GearHash.calculate, GearHash.feed]

theorem Within.cut (h : roll.Within start) : roll.cut.Within roll.position :=
  ⟨rfl, h.hash_eq⟩

/-- One more byte belongs to the same chunk. -/
theorem Within.next? (h : roll.Within start) (hnext : roll.next? = some after) :
    after.Within start := by
  have hlt : roll.position < data.size := by
    apply Nat.lt_of_not_le
    intro hle
    have hend : roll.atEnd = true :=
      Cursor.atEnd_iff.mpr (Nat.le_antisymm roll.position_le hle)
    rw [next?_of_atEnd hend] at hnext
    cases hnext
  rw [next?_of_lt hlt] at hnext
  cases hnext
  refine ⟨?_, ?_⟩
  · show roll.position + 1 = start + (roll.length + 1)
    rw [h.position_eq, Nat.add_assoc]
  · show roll.hash.advance data[roll.position] = .calculate (data.extract 0 (roll.position + 1))
    have hpush := Array.push_extract_getElem (i := 0) hlt
    rw [Nat.min_eq_left (Nat.zero_le _)] at hpush
    rw [← hpush, h.hash_eq, GearHash.calculate, GearHash.calculate, GearHash.feed_push]

/-- Past the start of its chunk, a roll closes the chunk exactly where the chunk may end. -/
theorem Within.closes_iff (h : roll.Within start) (hpos : 0 < roll.length) :
    detector.closes roll = true ↔ detector.MayEnd data start roll.position := by
  have hposition := h.position_eq
  have hlength : roll.position - start = roll.length := by omega
  have hend : roll.atEnd = true ↔ roll.position = data.size := Cursor.atEnd_iff
  simp only [Detector.closes, Detector.splits, Detector.shouldSplit, Bool.or_eq_true,
    Bool.and_eq_true, decide_eq_true_eq, hend]
  constructor
  · intro hcloses
    refine ⟨by omega, roll.position_le, ?_⟩
    rw [hlength, ← h.hash_eq]
    by_cases hsize : roll.position = data.size
    · exact Or.inl hsize
    · simpa [hsize] using hcloses
  · intro hmay
    have hrule := hmay.rule
    rw [hlength, ← h.hash_eq] at hrule
    by_cases hsize : roll.position = data.size
    · exact Or.inl hsize
    · simpa [hsize] using hrule

/-- A roll that closes a chunk has come to the first place where the chunk may end; one that does
not was at the end of the buffer. -/
theorem Within.advance (h : roll.Within start) {closed : Bool}
    (hahead : ∀ mid, detector.MayEnd data start mid → roll.position < mid)
    (hadvance : roll.advance detector.closes = (after, closed)) :
    (closed = true → detector.EndsAt data start after.position ∧ after.Within start) ∧
      (closed = false → roll.position = data.size) := by
  fun_induction Roll.advance detector.closes roll with
  | case1 roll hnone =>
    cases hadvance
    refine ⟨?_, fun _ => position_of_next?_eq_none hnone⟩
    intro hclosed
    cases hclosed
  | case2 roll next hnext hcloses =>
    cases hadvance
    obtain ⟨hposition, hlength, _⟩ := ahead_of_next? hnext
    have hnextWithin := h.next? hnext
    refine ⟨fun _ => ⟨⟨?_, ?_⟩, hnextWithin⟩, ?_⟩
    · exact (hnextWithin.closes_iff (by omega)).mp hcloses
    · intro mid hmid
      have hbefore := hahead mid hmid
      omega
    · intro hopen
      cases hopen
  | case3 roll next hnext hgo ih =>
    obtain ⟨hposition, hlength, _⟩ := ahead_of_next? hnext
    have hnextWithin := h.next? hnext
    have hnotHere : ¬detector.MayEnd data start next.position := fun hmay =>
      hgo ((hnextWithin.closes_iff (by omega)).mpr hmay)
    -- so the places where the chunk may end lie past `next` too
    have hnextAhead : ∀ mid, detector.MayEnd data start mid → next.position < mid := by
      intro mid hmid
      have hbefore := hahead mid hmid
      have hne : mid ≠ next.position := fun heq => hnotHere (heq ▸ hmid)
      omega
    obtain ⟨hclosed, hopen⟩ := ih hnextWithin hnextAhead hadvance
    refine ⟨hclosed, ?_⟩
    intro hfalse
    have hsize := hopen hfalse
    have hstart := hnextWithin.position_eq
    exact absurd ⟨by omega, Nat.le_of_eq hsize, Or.inl hsize⟩ hnotHere

end Roll

namespace Chunker

variable {data : Buffer} {chunker : Chunker data}

/-- At the start of a chunk a call finds the end of the buffer, or the place where the chunk ends,
and then it is at the start of the next chunk. -/
theorem next?_cases (h : chunker.roll.Within chunker.position) :
    (chunker.position = data.size ∧ chunker.next? = (none, chunker)) ∨
      ∃ roll : Roll data,
        chunker.next? = (some roll.position, { chunker with roll := roll.cut }) ∧
        chunker.detector.EndsAt data chunker.position roll.position ∧
        roll.cut.Within roll.position ∧ roll.cut.remaining < chunker.roll.remaining := by
  have hahead : ∀ mid, chunker.detector.MayEnd data chunker.position mid →
      chunker.roll.position < mid := fun mid hmid => hmid.lt
  rcases hadvance : chunker.roll.advance chunker.detector.closes with ⟨roll, closed⟩
  obtain ⟨hclosed, hopen⟩ := h.advance hahead hadvance
  cases closed with
  | false =>
    have hposition : chunker.position = data.size := hopen rfl
    exact Or.inl ⟨hposition, next?_of_atEnd (Cursor.atEnd_iff.mpr hposition)⟩
  | true =>
    obtain ⟨hend, hwithin⟩ := hclosed rfl
    have hfewer : roll.cut.remaining < chunker.roll.remaining :=
      roll.remaining_cut.symm ▸ Roll.remaining_advance hadvance
    exact Or.inr ⟨roll, next?_of_closed hadvance, hend, hwithin.cut, hfewer⟩

/-- From the start of a chunk on, the chunker yields the ends that the rule gives. -/
theorem segments_ends (chunker : Chunker data) (h : chunker.roll.Within chunker.position) :
    chunker.detector.Segments data chunker.position chunker.ends := by
  rcases next?_cases h with ⟨hposition, hnone⟩ | ⟨roll, hsome, hend, hwithin, hfewer⟩
  · rw [ends_of_none hnone, hposition]
    exact .nil
  · rw [ends_of_some hsome]
    exact .cons hend (segments_ends { chunker with roll := roll.cut } hwithin)
termination_by chunker.roll.remaining

end Chunker

/-- The ends of the chunks of a buffer are those that the rule gives. -/
theorem Detector.segments_chunkEnds (detector : Detector) (data : Buffer) :
    detector.Segments data 0 (detector.chunkEnds data).toList :=
  Chunker.segments_ends (.start detector data) (Roll.within_start data)

end LongMatch
