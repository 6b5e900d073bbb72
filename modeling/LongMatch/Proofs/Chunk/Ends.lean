import LongMatch.Proofs.Chunk.Advance
/-!
# LongMatch.Proofs.Chunk.Ends: two ways to go through the ends of chunks

A chunker stops where a detector closes a chunk, and the end of the buffer always closes one; a scan
stops where the detector splits, and the end of the buffer does so only if the last chunk is long
enough. `Chunker.ends` lists the stops of the first kind, and `longEnds` keeps those whose chunk has
the least length: all of them, or all but the last (`Chunker.longEnds_ends`).

`Roll.Shifted` relates a roll through a buffer to one through its rest from some place on. Rolls so
related have the same hash and length, so they reach the same places (`Roll.Shifted.advance`).
-/

namespace LongMatch

/-! ## Splits and closed chunks -/

namespace Detector

variable {data : Buffer} {detector : Detector} {roll : Roll data}

/-- A place that closes a chunk splits exactly if the chunk is long enough. -/
theorem splits_eq_of_closes (h : detector.closes roll = true) :
    detector.splits roll = decide (detector.minChunk ≤ roll.length) := by
  unfold closes at h
  by_cases hlong : detector.minChunk ≤ roll.length
  · have hrule : detector.splits roll =
        (roll.atEnd || decide (detector.maxChunk ≤ roll.length) || detector.isBoundary roll.hash) :=
      by rw [splits, shouldSplit, decide_eq_true hlong, Bool.true_and]
    cases hend : roll.atEnd with
    | true => rw [hrule, hend, decide_eq_true hlong, Bool.true_or, Bool.true_or]
    | false =>
      rw [hend, Bool.false_or] at h
      rw [h, decide_eq_true hlong]
  · rw [splits, shouldSplit, decide_eq_false hlong, Bool.false_and]

/-- A place that closes a chunk and does not split is the end of the buffer. -/
theorem atEnd_of_closes (h : detector.closes roll = true) (hsplits : detector.splits roll = false) :
    roll.atEnd = true := by
  rwa [closes, hsplits, Bool.or_false] at h

end Detector

/-! ## The ends as a list -/

/-- The stops whose chunk has the least length, given where the first chunk starts. -/
def longEnds (least start : Nat) : List Nat → List Nat
  | [] => []
  | stop :: stops =>
    if start + least ≤ stop then stop :: longEnds least stop stops else longEnds least stop stops

/-- A chunk that is long enough leaves room for a window. -/
theorem of_mem_longEnds {least start stop : Nat} {stops : List Nat}
    (h : stop ∈ longEnds least start stops) : least ≤ stop ∧ stop ∈ stops := by
  induction stops generalizing start with
  | nil => cases h
  | cons first stops ih =>
    unfold longEnds at h
    split at h
    · rcases List.mem_cons.mp h with rfl | hrest
      · exact ⟨by omega, List.mem_cons_self⟩
      · exact ⟨(ih hrest).1, List.mem_cons_of_mem _ (ih hrest).2⟩
    · exact ⟨(ih h).1, List.mem_cons_of_mem _ (ih h).2⟩

namespace Chunker

variable {data : Buffer} {chunker after : Chunker data}

theorem collect_of_none (h : chunker.next? = (none, after)) (stops : Array Nat) :
    chunker.collect stops = stops := by
  rw [collect]
  split <;> simp_all

theorem collect_of_some {stop : Nat} (h : chunker.next? = (some stop, after))
    (stops : Array Nat) : chunker.collect stops = after.collect (stops.push stop) := by
  rw [collect]
  split <;> simp_all

/-- Collecting appends to what was there before. -/
theorem toList_collect (chunker : Chunker data) (stops : Array Nat) :
    (chunker.collect stops).toList = stops.toList ++ (chunker.collect #[]).toList := by
  rcases hnext : chunker.next? with ⟨_ | stop, after⟩
  · rw [collect_of_none hnext, collect_of_none hnext, List.append_nil]
  · have hfewer := remaining_next? hnext
    rw [collect_of_some hnext, collect_of_some hnext, toList_collect after (stops.push stop),
      toList_collect after (#[].push stop), Array.toList_push, Array.toList_push, List.append_assoc,
      List.nil_append]
termination_by chunker.roll.remaining

/-- The ends of all chunks from here on, in order. -/
def ends (chunker : Chunker data) : List Nat := (chunker.collect #[]).toList

theorem ends_of_none (h : chunker.next? = (none, after)) : chunker.ends = [] :=
  congrArg Array.toList (collect_of_none h #[])

theorem ends_of_some {stop : Nat} (h : chunker.next? = (some stop, after)) :
    chunker.ends = stop :: after.ends := by
  rw [ends, collect_of_some h, toList_collect]
  rfl

theorem next?_of_closed {roll : Roll data}
    (h : chunker.roll.advance chunker.detector.closes = (roll, true)) :
    chunker.next? = (some roll.position, { chunker with roll := roll.cut }) := by
  rw [next?, h]

theorem next?_of_open {roll : Roll data}
    (h : chunker.roll.advance chunker.detector.closes = (roll, false)) :
    chunker.next? = (none, { chunker with roll }) := by
  rw [next?, h]

/-- At the end of the buffer a call finds nothing and changes nothing. -/
theorem next?_of_atEnd (h : chunker.roll.atEnd = true) : chunker.next? = (none, chunker) :=
  next?_of_open (Roll.advance_of_none (Roll.next?_of_atEnd h))

/-- No chunk begins at the end of the buffer. -/
theorem ends_of_atEnd (h : chunker.roll.atEnd = true) : chunker.ends = [] :=
  ends_of_none (next?_of_atEnd h)

/-- From the start of a chunk, the place that closes it splits and is kept, or it is the end of the
buffer and the chunk is too short. -/
theorem longEnds_of_closed {roll : Roll data} (hlength : chunker.roll.length = 0)
    (hadvance : chunker.roll.advance chunker.detector.closes = (roll, true)) :
    (chunker.detector.splits roll = true ∧
        chunker.ends = roll.position :: ({ chunker with roll := roll.cut } : Chunker data).ends ∧
        longEnds chunker.detector.minChunk chunker.position chunker.ends =
          roll.position :: longEnds chunker.detector.minChunk roll.position
            ({ chunker with roll := roll.cut } : Chunker data).ends) ∨
      (chunker.detector.splits roll = false ∧ chunker.ends = [roll.position] ∧
        longEnds chunker.detector.minChunk chunker.position chunker.ends = []) := by
  obtain ⟨count, _, hahead, hcloses⟩ := Roll.advance_eq_true hadvance
  have hends := ends_of_some (next?_of_closed hadvance)
  -- the length of the chunk is what lies between its start and its end
  have hroom : chunker.position + chunker.detector.minChunk ≤ roll.position ↔
      chunker.detector.minChunk ≤ roll.length := by
    have hposition := hahead.position_eq
    have hcount := hahead.length_eq
    unfold position
    omega
  cases hsplits : chunker.detector.splits roll with
  | true =>
    have hlong := Detector.minChunk_le_of_splits hsplits
    refine Or.inl ⟨rfl, hends, ?_⟩
    rw [hends, longEnds, if_pos (hroom.mpr hlong)]
  | false =>
    have hatEnd : roll.atEnd = true := Detector.atEnd_of_closes hcloses hsplits
    have hlast : ({ chunker with roll := roll.cut } : Chunker data).ends = [] :=
      ends_of_atEnd hatEnd
    have hshort : ¬chunker.detector.minChunk ≤ roll.length := by
      rw [Detector.splits_eq_of_closes hcloses] at hsplits
      exact of_decide_eq_false hsplits
    rw [hlast] at hends
    refine Or.inr ⟨rfl, hends, ?_⟩
    rw [hends, longEnds, if_neg (fun h => hshort (hroom.mp h)), longEnds]

/-- From the start of a chunk, the first chunk of least length ends where the next split is. -/
theorem longEnds_of_advance {roll : Roll data} {closed : Bool} (hlength : chunker.roll.length = 0)
    (hadvance : chunker.roll.advance chunker.detector.closes = (roll, closed)) :
    longEnds chunker.detector.minChunk chunker.position chunker.ends =
      if closed && chunker.detector.splits roll then
        roll.position :: longEnds chunker.detector.minChunk roll.position
          ({ chunker with roll := roll.cut } : Chunker data).ends
      else [] := by
  cases closed with
  | false =>
    rw [ends_of_none (next?_of_open hadvance)]
    rfl
  | true =>
    rcases longEnds_of_closed hlength hadvance with ⟨hsplits, _, hlong⟩ | ⟨hsplits, _, hlong⟩
    · rw [hlong, hsplits]
      rfl
    · rw [hlong, hsplits]
      rfl

/-- The chunks of least length are all chunks, or all but the last. -/
theorem longEnds_ends (chunker : Chunker data) (hlength : chunker.roll.length = 0) :
    longEnds chunker.detector.minChunk chunker.position chunker.ends = chunker.ends ∨
      longEnds chunker.detector.minChunk chunker.position chunker.ends = chunker.ends.dropLast := by
  rcases hadvance : chunker.roll.advance chunker.detector.closes with ⟨roll, closed⟩
  cases closed with
  | false =>
    rw [ends_of_none (next?_of_open hadvance)]
    exact Or.inl rfl
  | true =>
    rcases longEnds_of_closed hlength hadvance with ⟨_, hends, hlong⟩ | ⟨_, hends, hlong⟩
    · have hfewer : roll.cut.remaining < chunker.roll.remaining :=
        roll.remaining_cut.symm ▸ Roll.remaining_advance hadvance
      have hrest := longEnds_ends { chunker with roll := roll.cut } rfl
      rw [hlong, hends]
      generalize ({ chunker with roll := roll.cut } : Chunker data).ends = stops at hrest ⊢
      rcases hrest with hall | hfront
      · exact Or.inl (congrArg (roll.position :: ·) hall)
      · cases stops with
        | nil => exact Or.inl rfl
        | cons stop stops => exact Or.inr (congrArg (roll.position :: ·) hfront)
    · rw [hlong, hends]
      exact Or.inr rfl
termination_by chunker.roll.remaining

end Chunker

/-! ## A roll through the rest of a buffer -/

namespace Roll

variable {data : Buffer} {start : Nat} {roll : Roll data}
  {inner next : Roll (data.extract start data.size)} {detector : Detector}

/-- `inner` is at the same place in the rest of the buffer from `start` on. -/
structure Shifted (start : Nat) (roll : Roll data) (inner : Roll (data.extract start data.size)) :
    Prop where
  position_eq : roll.position = start + inner.position
  hash_eq : roll.hash = inner.hash
  length_eq : roll.length = inner.length

theorem size_extract_rest (data : Buffer) (start : Nat) :
    (data.extract start data.size).size = data.size - start := by
  rw [Array.size_extract, Nat.min_self]

theorem Shifted.cut (h : roll.Shifted start inner) : roll.cut.Shifted start inner.cut :=
  ⟨h.position_eq, h.hash_eq, rfl⟩

theorem Shifted.start_le (h : roll.Shifted start inner) : start ≤ data.size := by
  have hposition := h.position_eq
  have hle := roll.position_le
  omega

theorem Shifted.atEnd_eq (h : roll.Shifted start inner) : roll.atEnd = inner.atEnd := by
  have hstart := h.start_le
  have hposition := h.position_eq
  have hsize := size_extract_rest data start
  apply Bool.eq_iff_iff.mpr
  rw [atEnd, atEnd, Cursor.atEnd_iff, Cursor.atEnd_iff, hsize]
  unfold position at hposition
  omega

theorem Shifted.splits_eq (h : roll.Shifted start inner) (detector : Detector) :
    detector.splits roll = detector.splits inner := by
  rw [Detector.splits, Detector.splits, h.hash_eq, h.length_eq, h.atEnd_eq]

/-- The two rolls take the same byte. -/
theorem Shifted.next? (h : roll.Shifted start inner) :
    (roll.next? = none ∧ inner.next? = none) ∨
      ∃ after next, roll.next? = some after ∧ inner.next? = some next ∧
        after.Shifted start next := by
  have hposition := h.position_eq
  have hsize := size_extract_rest data start
  by_cases hlt : inner.position < (data.extract start data.size).size
  · have hlt' : roll.position < data.size := by omega
    refine Or.inr ⟨_, _, next?_of_lt hlt', next?_of_lt hlt, ?_, ?_, ?_⟩
    · show roll.position + 1 = start + (inner.position + 1)
      omega
    · have hbyte : (data.extract start data.size)[inner.position] = data[roll.position] := by
        rw [Array.getElem_extract]
        simp only [hposition]
      rw [hbyte, h.hash_eq]
    · exact congrArg (· + 1) h.length_eq
  · have hend : inner.atEnd = true :=
      Cursor.atEnd_iff.mpr (Nat.le_antisymm inner.position_le (Nat.le_of_not_lt hlt))
    exact Or.inl ⟨next?_of_atEnd (h.atEnd_eq.trans hend), next?_of_atEnd hend⟩

/-- Where `inner` comes to the end of a chunk, the roll splits or is at the end of the buffer. -/
theorem Shifted.exists_advance (h : roll.Shifted start inner) {closed : Bool}
    (hadvance : inner.advance detector.closes = (next, closed)) :
    ∃ after, roll.advance detector.splits = (after, closed && detector.splits next) ∧
      after.Shifted start next := by
  fun_induction advance detector.closes inner generalizing roll with
  | case1 inner hnone =>
    cases hadvance
    rcases h.next? with ⟨hroll, _⟩ | ⟨_, _, _, hsome, _⟩
    · exact ⟨roll, advance_of_none hroll, h⟩
    · cases hnone.symm.trans hsome
  | case2 inner following hnext hcloses =>
    cases hadvance
    rcases h.next? with ⟨_, hnone⟩ | ⟨after, _, hroll, hsome, hafter⟩
    · cases hnone.symm.trans hnext
    · cases hsome.symm.trans hnext
      refine ⟨after, ?_, hafter⟩
      cases hsplits : detector.splits next with
      | true => exact advance_of_ends hroll ((hafter.splits_eq detector).trans hsplits)
      | false =>
        -- the last chunk is too short: the roll goes on and finds nothing
        have hatEnd := Detector.atEnd_of_closes hcloses hsplits
        rw [advance_of_next? hroll ((hafter.splits_eq detector).trans hsplits)]
        exact advance_of_none (next?_of_atEnd (hafter.atEnd_eq.trans hatEnd))
  | case3 inner following hnext hgo ih =>
    rcases h.next? with ⟨_, hnone⟩ | ⟨after, _, hroll, hsome, hafter⟩
    · cases hnone.symm.trans hnext
    · cases hsome.symm.trans hnext
      have hsplits : detector.splits following = false := by
        have hgo' := eq_false_of_ne_true hgo
        rw [Detector.closes, Bool.or_eq_false_iff] at hgo'
        exact hgo'.2
      rw [advance_of_next? hroll ((hafter.splits_eq detector).trans hsplits)]
      exact ih hafter hadvance

end Roll

end LongMatch
