import Mathlib.Order.Bounds.Defs
import LongMatch.Proofs.Chunk.Locality
/-!
# LongMatch.Proofs.Chunk.Segmentation: a buffer is cut greedily

The settings alone say where a chunk that begins at a given place may end: `Params.endPlaces`, in
terms of its length and of the hash of all bytes before the end. The chunker ends each chunk at the
least of these places, so the list of ends is determined, chunk by chunk: `chunk_ends_are_greedy`.
That holds for all settings that have a detector at all, valid or not. The same theorem follows the
chunker call by call, also past the last end.
-/

namespace LongMatch

/-! ## The rule in terms of the settings -/

namespace Params

/-- The places where a chunk that begins at `start` may end, if `greatest` is the greatest length of
a chunk. -/
def endPlaces (params : Params) (greatest : Nat) (data : Buffer) (start : Nat) : Set Nat :=
  {stop | start < stop ∧ stop ≤ data.size ∧
    (stop = data.size ∨ params.minChunk ≤ stop - start ∧ (greatest ≤ stop - start ∨
      (GearHash.calculate (data.extract 0 stop)).value.toNat % 2 ^ params.hashRateLog = 0))}

variable {params : Params} {data : Buffer} {start stop : Nat}

/-- Settings that have a detector have a greatest chunk, which is the detector's, and a rate that
fits the hash. -/
theorem sizes_of_ofParams {detector : Detector} (h : Detector.ofParams params = .ok detector) :
    params.maxChunk = .ok detector.maxChunk ∧ params.hashRateLog < 64 := by
  obtain ⟨mask, hmask, hrest⟩ := Checked.bind_eq_ok_iff.mp h
  obtain ⟨greatest, hgreatest, hdetector⟩ := Checked.bind_eq_ok_iff.mp hrest
  obtain ⟨rate, hrate, _⟩ := Checked.bind_eq_ok_iff.mp hmask
  cases hdetector
  exact ⟨hgreatest, (Checked.pow2_eq_ok_iff.mp hrate).1⟩

theorem mem_endPlaces_iff (hrate : params.hashRateLog < 64) :
    stop ∈ params.endPlaces params.detector.maxChunk data start ↔
      params.detector.MayEnd data start stop := by
  have hsplit := Params.isBoundary_iff_of_lt hrate (.calculate (data.extract 0 stop))
  constructor
  · rintro ⟨hlt, hle, hrule⟩
    exact ⟨hlt, hle, by rwa [hsplit]⟩
  · rintro ⟨hlt, hle, hrule⟩
    exact ⟨hlt, hle, by rwa [hsplit] at hrule⟩

/-- The greatest chunk of a detector that comes from settings holds two of the shortest. -/
theorem detector_limits (params : Params) : 0 < params.detector.maxChunk ∧
    params.detector.minChunk ≤ params.detector.maxChunk := by
  have hpow : 0 < 2 ^ (params.hashRateLog + greatestChunkLog) := Nat.pow_pos (by decide)
  constructor
  · exact Nat.lt_of_lt_of_le hpow (Nat.le_max_left _ _)
  · show params.minChunk ≤ max _ (2 * params.minChunk)
    omega

end Params

/-! ## What the list of ends is like -/

namespace Detector

variable {detector : Detector} {data : Buffer} {start stop : Nat} {stops before after : List Nat}

/-- A chunk gets no longer than the greatest length, for it may end there. -/
theorem EndsAt.length_le (h : detector.EndsAt data start stop) (hpos : 0 < detector.maxChunk)
    (hlimits : detector.minChunk ≤ detector.maxChunk) : stop - start ≤ detector.maxChunk := by
  apply Nat.le_of_not_lt
  intro hlong
  have hle := h.le_size
  have hlength : start + detector.maxChunk - start = detector.maxChunk :=
    Nat.add_sub_cancel_left _ _
  have hforced : detector.MayEnd data start (start + detector.maxChunk) := by
    refine ⟨by omega, by omega, Or.inr ?_⟩
    rw [hlength]
    exact ⟨hlimits, Or.inl (Nat.le_refl _)⟩
  have hfirst := h.least _ hforced
  omega

namespace Segments

theorem pairwise_lt (h : detector.Segments data start stops) : stops.Pairwise (· < ·) := by
  induction h with
  | nil => exact .nil
  | cons _ hrest ih => exact .cons (fun _ hmem => hrest.lt_of_mem hmem) ih

/-- The last chunk, if there is one, ends with the buffer. -/
theorem getLastD_eq (h : detector.Segments data start stops) :
    stops.getLastD start = data.size := by
  induction h with
  | nil => rfl
  | cons _ _ ih => rwa [List.getLastD_cons]

/-- Each chunk begins where the one before it ends, and ends at the first place where it may. -/
theorem endsAt (h : detector.Segments data start (before ++ stop :: after)) :
    detector.EndsAt data (before.getLastD start) stop ∧ detector.Segments data stop after := by
  induction before generalizing start with
  | nil =>
    cases h with
    | cons hend hrest => exact ⟨hend, hrest⟩
  | cons first before ih =>
    cases h with
    | cons _ hrest =>
      rw [List.getLastD_cons]
      exact ih hrest

/-- Only the last chunk ends because the buffer does. -/
theorem lt_size (h : detector.Segments data stop after) (hmore : after ≠ []) :
    stop < data.size := by
  cases h with
  | nil => exact absurd rfl hmore
  | cons hend _ => exact Nat.lt_of_lt_of_le hend.lt hend.le_size

end Segments

end Detector

/-! ## One call after another -/

namespace Chunker

variable {data : Buffer} {chunker : Chunker data}

/-- The answers of a number of calls in order, and the chunker after them. -/
def calls : Nat → Chunker data → List (Option Nat) × Chunker data
  | 0, chunker => ([], chunker)
  | count + 1, chunker =>
    let (stop?, next) := chunker.next?
    let (stops, after) := calls count next
    (stop? :: stops, after)

/-- Once a call changes nothing, further calls do not either. -/
theorem calls_of_none (h : chunker.next? = (none, chunker)) (count : Nat) :
    chunker.calls count = (List.replicate count none, chunker) := by
  induction count with
  | zero => rfl
  | succ count ih =>
    rw [calls, h]
    simp only [ih]
    rfl

/-- From the start of a chunk on, the calls tell the ends one by one, and from then on nothing. -/
theorem calls_ends (chunker : Chunker data) (h : chunker.roll.Within chunker.position)
    (extra : Nat) :
    ∃ after, chunker.calls (chunker.ends.length + extra) =
        (chunker.ends.map some ++ List.replicate extra none, after) ∧
      after.position = data.size := by
  rcases next?_cases h with ⟨hposition, hnone⟩ | ⟨roll, hsome, _, hwithin, hfewer⟩
  · refine ⟨chunker, ?_, hposition⟩
    rw [ends_of_none hnone, List.length_nil, Nat.zero_add, calls_of_none hnone]
    rfl
  · obtain ⟨after, hcalls, hposition⟩ :=
      calls_ends { chunker with roll := roll.cut } hwithin extra
    refine ⟨after, ?_, hposition⟩
    rw [ends_of_some hsome, List.length_cons, Nat.add_right_comm, calls, hsome]
    simp only [hcalls]
    rfl
termination_by chunker.roll.remaining

end Chunker

/-! ## The segmentation -/

namespace Detector

/-- **The chunks are the greedy segmentation.** For all settings that have a detector, the ends of
the chunks of a buffer increase up to its size; each is the least place where a chunk that begins at
the end before it may end; so no chunk is longer than the greatest length, and only the last may be
shorter than the least one. Calls tell the ends in this order, and every further call tells that
there is none. -/
theorem chunk_ends_are_greedy (params : Params) (detector : Detector)
    (hdetector : ofParams params = .ok detector) (data : Buffer) :
    ∃ greatest, params.maxChunk = .ok greatest ∧
      (detector.chunkEnds data).toList.Pairwise (· < ·) ∧
      (data.size = 0 → (detector.chunkEnds data).toList = []) ∧
      (data.size ≠ 0 → (detector.chunkEnds data).toList.getLast? = some data.size) ∧
      (∀ before stop after, (detector.chunkEnds data).toList = before ++ stop :: after →
        IsLeast (params.endPlaces greatest data (before.getLastD 0)) stop ∧
          stop - before.getLastD 0 ≤ greatest ∧
          (after ≠ [] → params.minChunk ≤ stop - before.getLastD 0)) ∧
      ∀ extra, ∃ after : Chunker data,
        (Chunker.start detector data).calls ((detector.chunkEnds data).toList.length + extra) =
            ((detector.chunkEnds data).toList.map some ++ List.replicate extra none, after) ∧
          after.position = data.size := by
  obtain ⟨hgreatest, hrate⟩ := Params.sizes_of_ofParams hdetector
  obtain rfl := Params.detector_of_ofParams hdetector
  have hsegments := params.detector.segments_chunkEnds data
  have hlast := hsegments.getLastD_eq
  refine ⟨_, hgreatest, hsegments.pairwise_lt, ?_, ?_, ?_, ?_⟩
  · intro hempty
    apply List.eq_nil_iff_forall_not_mem.mpr
    intro stop hmem
    have hpos := hsegments.lt_of_mem hmem
    have hle := le_size_of_mem_chunkEnds (Array.mem_toList_iff.mp hmem)
    omega
  · intro hsome
    rw [List.getLastD_eq_getLast?] at hlast
    cases hend : (params.detector.chunkEnds data).toList.getLast? with
    | none =>
      rw [hend] at hlast
      exact absurd hlast.symm hsome
    | some last =>
      rw [hend] at hlast
      exact congrArg some hlast
  · intro before stop after hsplit
    rw [hsplit] at hsegments
    obtain ⟨hend, hrest⟩ := hsegments.endsAt
    obtain ⟨hpos, hlimits⟩ := params.detector_limits
    refine ⟨⟨(Params.mem_endPlaces_iff hrate).mpr hend.toMayEnd, ?_⟩,
      hend.length_le hpos hlimits, ?_⟩
    · intro mid hmid
      exact hend.least mid ((Params.mem_endPlaces_iff hrate).mp hmid)
    · intro hmore
      have hlt := hrest.lt_size hmore
      exact (hend.rule.resolve_left (Nat.ne_of_lt hlt)).1
  · exact Chunker.calls_ends (.start params.detector data) (Roll.within_start data)

/-! ### A run of one byte and ten others

The least length of these settings is none at all. The run is cut by force, what follows it at
natural splits, and the last chunk ends with the buffer. -/

def greedyParams : Params := ⟨10, 6, 0, 2, 0⟩

def greedyData : Buffer := Array.replicate 35 1 ++ #[1, 2, 3, 4, 5, 6, 7, 8, 9, 10]

theorem ends_of_run_are_greedy :
    ofParams greedyParams = .ok greedyParams.detector ∧
      greedyParams.maxChunk = .ok 32 ∧
      greedyParams.detector.chunkEnds greedyData = #[32, 37, 39, 43, 45] ∧
      IsLeast (greedyParams.endPlaces 32 greedyData 0) 32 ∧
      IsLeast (greedyParams.endPlaces 32 greedyData 32) 37 ∧
      IsLeast (greedyParams.endPlaces 32 greedyData 43) 45 ∧
      ∃ after : Chunker greedyData, (Chunker.start greedyParams.detector greedyData).calls 7 =
          ([some 32, some 37, some 39, some 43, some 45, none, none], after) ∧
        after.position = 45 := by
  have hdetector : ofParams greedyParams = .ok greedyParams.detector := rfl
  have hmax : greedyParams.maxChunk = .ok 32 := rfl
  have hends : greedyParams.detector.chunkEnds greedyData = #[32, 37, 39, 43, 45] := by
    decide +kernel
  obtain ⟨greatest, hgreatest, _, _, _, hleast, hcalls⟩ :=
    chunk_ends_are_greedy greedyParams _ hdetector greedyData
  obtain rfl : greatest = 32 := Except.ok.inj (hgreatest.symm.trans hmax)
  rw [hends] at hleast hcalls
  exact ⟨hdetector, hmax, hends, (hleast [] 32 [37, 39, 43, 45] rfl).1,
    (hleast [32] 37 [39, 43, 45] rfl).1, (hleast [32, 37, 39, 43] 45 [] rfl).1, hcalls 2⟩

end Detector

end LongMatch
