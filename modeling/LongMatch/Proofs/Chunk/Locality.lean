import LongMatch.Proofs.Chunk.Greedy
import LongMatch.Proofs.Gear.Horizon
import LongMatch.Proofs.Params.Sizes
/-!
# LongMatch.Proofs.Chunk.Locality: an edit moves the ends near it and no others

Two buffers that differ in a stretch between a common front and a common back are cut alike on both
sides of it. In the front this is so because a place before the end of the buffer is judged by the
bytes before it alone (`MayEnd.of_front`). In the back the hashes differ, but a natural split looks
at their low bits only, which come from the last few bytes: once a chunk begins at the same place of
the back in both, and its least length reaches past those bytes, it ends at the same place in both
(`EndsAt.of_back`), and so do all chunks after it. The result is `chunk_ends_are_local`.
-/

namespace LongMatch

/-! ## Natural splits -/

/-- A natural split is a place where the low bits of the hash are zero. -/
theorem Params.isBoundary_iff_of_lt {params : Params} (hrate : params.hashRateLog < 64)
    (hash : GearHash) :
    params.detector.isBoundary hash = true ↔
      hash.value.toNat % 2 ^ params.hashRateLog = 0 := by
  have hmask : params.detector.stopMask.toNat = 2 ^ params.hashRateLog - 1 := by
    have hword : 2 ^ params.hashRateLog ≤ 2 ^ (63 : Nat) :=
      Nat.pow_le_pow_right (by decide) (by omega)
    simp only [Params.detector, Nat.toUInt64, UInt64.toNat_ofNat']
    omega
  rw [Detector.isBoundary, beq_iff_eq, ← UInt64.toNat_inj, UInt64.toNat_and, hmask,
    Nat.and_two_pow_sub_one_eq_mod]
  rfl

namespace Params.Valid

variable {params : Params}

theorem isBoundary_iff (valid : params.Valid) (hash : GearHash) :
    params.detector.isBoundary hash = true ↔
      hash.value.toNat % 2 ^ params.hashRateLog = 0 := by
  have hrate : params.hashRateLog ≤ 25 := valid.hashRateLog
  exact isBoundary_iff_of_lt (by omega) hash

/-- Whether a place is a natural split depends on as many of the last bytes as bits are looked
at. -/
theorem isBoundary_feed_iff (valid : params.Valid) (hash : GearHash) {data : Buffer}
    (hlong : params.hashRateLog ≤ data.size) :
    params.detector.isBoundary (hash.feed data) = true ↔
      params.detector.isBoundary (.calculate data) = true := by
  have hrate : params.hashRateLog ≤ 25 := valid.hashRateLog
  rw [valid.isBoundary_iff, valid.isBoundary_iff, hash.low_feed (by omega) hlong]

end Params.Valid

namespace Detector

/-! ## The front -/

section Front

variable {detector : Detector} {data other : Buffer} {size start stop : Nat}
  {stops others : List Nat}

/-- Two buffers have the first `size` bytes in common and go on after them. -/
structure SharedFront (size : Nat) (data other : Buffer) : Prop where
  lt : size < data.size
  lt_other : size < other.size
  same : data.extract 0 size = other.extract 0 size

theorem SharedFront.symm (h : SharedFront size data other) : SharedFront size other data :=
  ⟨h.lt_other, h.lt, h.same.symm⟩

theorem sharedFront_append (front middle middle' back : Buffer) (hback : 0 < back.size) :
    SharedFront front.size (front ++ middle ++ back) (front ++ middle' ++ back) := by
  refine ⟨?_, ?_, ?_⟩
  · simp only [Array.size_append]
    omega
  · simp only [Array.size_append]
    omega
  · simp [Array.append_assoc, Array.extract_append]

theorem extract_extract_front (data : Buffer) (h : stop ≤ size) :
    (data.extract 0 size).extract 0 stop = data.extract 0 stop := by
  rw [Array.extract_extract, Nat.zero_add, Nat.zero_add, Nat.min_eq_left h]

/-- A place in the common front is not the end of either buffer. -/
theorem MayEnd.of_front (h : detector.MayEnd data start stop) (hfront : SharedFront size data other)
    (hle : stop ≤ size) : detector.MayEnd other start stop := by
  have hlt := hfront.lt
  have hlt' := hfront.lt_other
  refine ⟨h.lt, by omega, Or.inr ?_⟩
  rw [← extract_extract_front other hle, ← hfront.same, extract_extract_front data hle]
  apply h.rule.resolve_left
  omega

theorem EndsAt.of_front (h : detector.EndsAt data start stop) (hfront : SharedFront size data other)
    (hle : stop ≤ size) : detector.EndsAt other start stop := by
  refine ⟨h.toMayEnd.of_front hfront hle, ?_⟩
  intro mid hmid
  by_cases hin : mid ≤ size
  · exact h.least mid (hmid.of_front hfront.symm hin)
  · omega

/-- An end in the common front is one of both buffers. -/
theorem Segments.mem_of_front (h : detector.Segments data start stops)
    (h' : detector.Segments other start others) (hfront : SharedFront size data other)
    (hle : stop ≤ size) (hmem : stop ∈ stops) : stop ∈ others := by
  induction h generalizing others with
  | nil => cases hmem
  | @cons start first stops hend hrest ih =>
    have hfirst : first ≤ stop := by
      rcases List.mem_cons.mp hmem with rfl | hlater
      · exact Nat.le_refl _
      · exact Nat.le_of_lt (hrest.lt_of_mem hlater)
    have hend' := hend.of_front hfront (Nat.le_trans hfirst hle)
    cases h' with
    | nil =>
      have hlt := hend'.lt
      have hsize := hend'.le_size
      omega
    | cons hother hrest' =>
      obtain rfl := hend'.eq hother
      rcases List.mem_cons.mp hmem with rfl | hlater
      · exact List.mem_cons_self
      · exact List.mem_cons_of_mem _ (ih hrest' hlater)

end Front

/-! ## The back -/

section Back

variable {params : Params} {front other back : Buffer} {first last stop : Nat}
  {stops others : List Nat}

theorem calculate_extract_append (front back : Buffer) (last : Nat) :
    GearHash.calculate ((front ++ back).extract 0 (front.size + last)) =
      (GearHash.calculate front).feed (back.extract 0 last) := by
  have hsplit : (front ++ back).extract 0 (front.size + last) = front ++ back.extract 0 last := by
    have hwhole : front.extract 0 (front.size + last) = front :=
      Array.extract_eq_self_of_le (Nat.le_add_right _ _)
    rw [Array.extract_append, hwhole, Nat.zero_sub, Nat.add_sub_cancel_left]
  rw [hsplit, GearHash.calculate, GearHash.feed_append, GearHash.calculate]

/-- In the back, a chunk that begins far enough in may end at the same places after any front. -/
theorem MayEnd.of_back (valid : params.Valid)
    (hhorizon : params.hashRateLog ≤ first + params.minMatchLength)
    (h : params.detector.MayEnd (front ++ back) (front.size + first) (front.size + last)) :
    params.detector.MayEnd (other ++ back) (other.size + first) (other.size + last) := by
  obtain ⟨hlt, hle, hrule⟩ := h
  rw [Array.size_append] at hle hrule
  have hlength : front.size + last - (front.size + first) = last - first := by omega
  have hlength' : other.size + last - (other.size + first) = last - first := by omega
  refine ⟨by omega, by rw [Array.size_append]; omega, ?_⟩
  rw [Array.size_append, hlength']
  rw [hlength] at hrule
  rcases hrule with hend | ⟨hmin, hrule⟩
  · left
    omega
  · right
    refine ⟨hmin, hrule.imp_right ?_⟩
    intro hsplit
    have hmin' : params.minMatchLength ≤ last - first := hmin
    -- the chunk has its least length, so the bits that count come from the back alone
    have hlong : params.hashRateLog ≤ (back.extract 0 last).size := by
      rw [Array.size_extract]
      omega
    rw [calculate_extract_append, valid.isBoundary_feed_iff _ hlong] at hsplit ⊢
    exact hsplit

theorem EndsAt.of_back (valid : params.Valid)
    (hhorizon : params.hashRateLog ≤ first + params.minMatchLength)
    (h : params.detector.EndsAt (front ++ back) (front.size + first) stop) :
    ∃ last, stop = front.size + last ∧ first < last ∧ last ≤ back.size ∧
      params.detector.EndsAt (other ++ back) (other.size + first) (other.size + last) := by
  obtain ⟨⟨hlt, hle, hrule⟩, hleast⟩ := h
  rw [Array.size_append] at hle
  obtain ⟨last, rfl⟩ : ∃ last, stop = front.size + last := ⟨stop - front.size, by omega⟩
  refine ⟨last, rfl, by omega, by omega, ?_, ?_⟩
  · exact MayEnd.of_back valid hhorizon ⟨hlt, by rwa [Array.size_append], hrule⟩
  · intro mid hmid
    have hmidLt := hmid.lt
    obtain ⟨place, rfl⟩ : ∃ place, mid = other.size + place := ⟨mid - other.size, by omega⟩
    have hfirst := hleast _ (MayEnd.of_back valid hhorizon hmid)
    omega

/-- Where chunks begin at the same place of the back, the ends that follow are the same places. -/
theorem Segments.mem_of_back (valid : params.Valid)
    (hhorizon : params.hashRateLog ≤ first + params.minMatchLength)
    (h : params.detector.Segments (front ++ back) (front.size + first) stops)
    (h' : params.detector.Segments (other ++ back) (other.size + first) others)
    (hmem : front.size + last ∈ stops) : other.size + last ∈ others := by
  generalize hstart : front.size + first = start at h
  generalize hstart' : other.size + first = start' at h'
  induction h generalizing first others start' with
  | nil => cases hmem
  | cons hend hrest ih =>
    subst hstart
    obtain ⟨next, rfl, hlt, hle, hend'⟩ := hend.of_back valid hhorizon
    cases h' with
    | nil =>
      rw [Array.size_append] at hstart'
      omega
    | cons hother hrest' =>
      subst hstart'
      obtain rfl := hend'.eq hother
      rcases List.mem_cons.mp hmem with heq | hlater
      · obtain rfl := Nat.add_left_cancel heq
        exact List.mem_cons_self
      · exact List.mem_cons_of_mem _ (ih (by omega) hlater rfl _ rfl hrest')

end Back

/-! ## A buffer before and after an edit -/

/-- A chunk of the buffer begins at a place: at its start or where another chunk ends. -/
def BeginsAt (detector : Detector) (data : Buffer) (start : Nat) : Prop :=
  start = 0 ∨ start ∈ detector.chunkEnds data

/-- The ends after the beginning of a chunk are those of the chunks from there on. -/
theorem BeginsAt.exists_segments {detector : Detector} {data : Buffer} {start : Nat}
    (h : detector.BeginsAt data start) :
    ∃ stops, detector.Segments data start stops ∧ ∀ later, start < later →
      (later ∈ detector.chunkEnds data ↔ later ∈ stops) := by
  have hsegments := detector.segments_chunkEnds data
  simp only [← Array.mem_toList_iff]
  rcases h with rfl | hmem
  · exact ⟨_, hsegments, fun later _ => Iff.rfl⟩
  · exact hsegments.exists_from (Array.mem_toList_iff.mpr hmem)

/-- **Chunk ends are local to an edit.** Two buffers that differ between a common front and a common
back have the same ends in the front. And once a chunk begins at the same place of the back in both,
far enough in for its least length to cover the bytes that a natural split looks at, they have the
same ends from there on. -/
theorem chunk_ends_are_local (params : Params) (hvalid : params.validate = .ok ()) :
    ∃ detector, Detector.ofParams params = .ok detector ∧
      ∀ front removed inserted back : Buffer, 0 < back.size →
        (∀ stop, stop ≤ front.size →
          (stop ∈ detector.chunkEnds (front ++ removed ++ back) ↔
            stop ∈ detector.chunkEnds (front ++ inserted ++ back))) ∧
        ∀ first, first ≤ back.size →
          detector.BeginsAt (front ++ removed ++ back) (front.size + removed.size + first) →
          detector.BeginsAt (front ++ inserted ++ back) (front.size + inserted.size + first) →
          params.hashRateLog ≤ first + detector.minChunk →
          ∀ last, first < last → last ≤ back.size →
            (front.size + removed.size + last ∈ detector.chunkEnds (front ++ removed ++ back) ↔
              front.size + inserted.size + last ∈
                detector.chunkEnds (front ++ inserted ++ back)) := by
  have valid := Params.validate_eq_ok_iff.mp hvalid
  refine ⟨params.detector, valid.detector_eq, ?_⟩
  intro front removed inserted back hback
  constructor
  · intro stop hstop
    have hfront := sharedFront_append front removed inserted back hback
    have hbefore := params.detector.segments_chunkEnds (front ++ removed ++ back)
    have hafter := params.detector.segments_chunkEnds (front ++ inserted ++ back)
    rw [← Array.mem_toList_iff, ← Array.mem_toList_iff]
    exact ⟨hbefore.mem_of_front hafter hfront hstop,
      hafter.mem_of_front hbefore hfront.symm hstop⟩
  · intro first _ hbegins hbegins' hhorizon last hlast _
    rw [← Array.size_append] at hbegins hbegins' ⊢
    rw [← Array.size_append]
    obtain ⟨stops, hsegments, hstops⟩ := hbegins.exists_segments
    obtain ⟨stops', hsegments', hstops'⟩ := hbegins'.exists_segments
    rw [hstops _ (Nat.add_lt_add_left hlast _), hstops' _ (Nat.add_lt_add_left hlast _)]
    exact ⟨hsegments.mem_of_back valid hhorizon hsegments',
      hsegments'.mem_of_back valid hhorizon hsegments⟩

/-! ### Five bytes inserted

The end at 12 turns up again at 17, six bytes into the common back, and so does every end after
it. -/

def editedParams : Params := ⟨10, 6, 4, 2, 0⟩

def editedFront : Buffer := #[1, 2, 3, 4, 5, 6]

def editedBack : Buffer :=
  #[65, 72, 79, 86, 93, 100, 107, 114, 121, 128, 135, 142, 149, 156, 163, 170]

theorem inserted_bytes_shift_ends :
    editedParams.validate = .ok () ∧ 0 < editedBack.size ∧
      ∃ detector, Detector.ofParams editedParams = .ok detector ∧
        detector.chunkEnds (editedFront ++ #[] ++ editedBack) = #[4, 12, 16, 22] ∧
        detector.chunkEnds (editedFront ++ #[9, 8, 7, 6, 5] ++ editedBack) = #[4, 12, 17, 21, 27] ∧
        (4 ∈ detector.chunkEnds (editedFront ++ #[] ++ editedBack) ↔
          4 ∈ detector.chunkEnds (editedFront ++ #[9, 8, 7, 6, 5] ++ editedBack)) ∧
        detector.BeginsAt (editedFront ++ #[] ++ editedBack) 12 ∧
        detector.BeginsAt (editedFront ++ #[9, 8, 7, 6, 5] ++ editedBack) 17 ∧
        editedParams.hashRateLog ≤ 6 + detector.minChunk ∧
        (16 ∈ detector.chunkEnds (editedFront ++ #[] ++ editedBack) ↔
          21 ∈ detector.chunkEnds (editedFront ++ #[9, 8, 7, 6, 5] ++ editedBack)) := by
  have hvalid : editedParams.validate = .ok () := rfl
  have hback : 0 < editedBack.size := by decide
  obtain ⟨detector, hdetector, hlocal⟩ := chunk_ends_are_local editedParams hvalid
  have hsame := (Params.validate_eq_ok_iff.mp hvalid).detector_eq
  obtain rfl : editedParams.detector = detector := Except.ok.inj (hsame.symm.trans hdetector)
  have hbefore : editedParams.detector.chunkEnds (editedFront ++ #[] ++ editedBack) =
      #[4, 12, 16, 22] := by decide +kernel
  have hafter : editedParams.detector.chunkEnds (editedFront ++ #[9, 8, 7, 6, 5] ++ editedBack) =
      #[4, 12, 17, 21, 27] := by decide +kernel
  have hbegins : editedParams.detector.BeginsAt (editedFront ++ #[] ++ editedBack) 12 :=
    Or.inr (by rw [hbefore]; simp)
  have hbegins' :
      editedParams.detector.BeginsAt (editedFront ++ #[9, 8, 7, 6, 5] ++ editedBack) 17 :=
    Or.inr (by rw [hafter]; simp)
  obtain ⟨hfront, hrest⟩ := hlocal editedFront #[] #[9, 8, 7, 6, 5] editedBack hback
  exact ⟨hvalid, hback, _, hdetector, hbefore, hafter, hfront 4 (by decide), hbegins, hbegins',
    by decide, hrest 6 (by decide) hbegins hbegins' (by decide) 10 (by decide) (by decide)⟩

end Detector

end LongMatch
