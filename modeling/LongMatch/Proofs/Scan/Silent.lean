import LongMatch.Proofs.Chunk.Segmentation
import LongMatch.Proofs.Scan.Collect
import LongMatch.Proofs.Scan.Probes
/-!
# LongMatch.Proofs.Scan.Silent: a scan without matches fills the table

Filling a table and scanning a buffer file windows in two different ways, one at the ends of chunks
and one at the splits that the scan probes. A scan that finds nothing probes all chunks that are
long enough in one call, `Sound.silent_or_found`, so the two differ in the last chunk at most:
filling files a window before the end of the buffer even if that chunk is too short, as long as the
buffer itself has room for the window (`fillWindows_eq`). The result is `silent_scan_fills`.
-/

namespace LongMatch

/-! ## The last chunk -/

namespace Detector

/-- Where the last chunk of a buffer begins. -/
def lastStart (detector : Detector) (data : Buffer) : Nat :=
  (detector.chunkEnds data).toList.dropLast.getLastD 0

variable {detector : Detector} {data : Buffer} {start : Nat} {stops : List Nat}

/-- All chunks have the least length but for the last, which counts if it has it too. -/
theorem Segments.longEnds_eq (h : detector.Segments data start stops) :
    longEnds detector.minChunk start stops =
      if data.size - stops.dropLast.getLastD start < detector.minChunk then stops.dropLast
      else stops := by
  induction h with
  | nil => simp [longEnds]
  | @cons start stop stops hend hrest ih =>
    have hlt := hend.lt
    by_cases hlast : stops = []
    · -- the only chunk ends with the buffer
      subst hlast
      have hsize : stop = data.size := hrest.getLastD_eq
      have hroom : start + detector.minChunk ≤ stop ↔
          ¬data.size - start < detector.minChunk := by omega
      by_cases hshort : data.size - start < detector.minChunk <;>
        simp [longEnds, hroom, hshort]
    · have hlong := (hend.rule.resolve_left (Nat.ne_of_lt (hrest.lt_size hlast))).1
      rw [longEnds, if_pos (by omega), ih, List.dropLast_cons_of_ne_nil hlast, List.getLastD_cons]
      split <;> rfl

/-- The ends that leave room for a window are those of the long chunks and the end of the buffer. -/
theorem filter_chunkEnds (detector : Detector) (data : Buffer) :
    (detector.chunkEnds data).toList.filter (detector.minChunk ≤ ·) =
      longEnds detector.minChunk 0 (detector.chunkEnds data).toList ++
        if data.size - detector.lastStart data < detector.minChunk ∧
            detector.minChunk ≤ data.size then [data.size] else [] := by
  have hsegments := detector.segments_chunkEnds data
  have hlongEnds := hsegments.longEnds_eq
  have hlast := hsegments.getLastD_eq
  rw [lastStart]
  generalize (detector.chunkEnds data).toList = stops at *
  have hkept : (longEnds detector.minChunk 0 stops).filter (detector.minChunk ≤ ·) =
      longEnds detector.minChunk 0 stops := by
    apply List.filter_eq_self.mpr
    intro stop hmem
    exact decide_eq_true (of_mem_longEnds hmem).1
  by_cases hshort : data.size - stops.dropLast.getLastD 0 < detector.minChunk
  · rw [if_pos hshort] at hlongEnds
    rw [hlongEnds] at hkept ⊢
    rcases List.eq_nil_or_concat' stops with rfl | ⟨front, last, rfl⟩
    · -- a buffer without chunks has no room for a window
      have hempty : data.size = 0 := hlast.symm
      simp only [List.dropLast_nil, List.getLastD_nil] at hshort
      rw [if_neg (by omega)]
      rfl
    · obtain rfl : last = data.size := by simpa using hlast
      rw [List.dropLast_concat] at hkept hshort ⊢
      rw [List.filter_append, hkept]
      simp only [hshort, true_and]
      by_cases hroom : detector.minChunk ≤ data.size <;> simp [hroom]
  · rw [if_neg hshort] at hlongEnds
    rw [hlongEnds] at hkept ⊢
    rw [hkept, if_neg (fun h => hshort h.1), List.append_nil]

end Detector

/-- Filling files the windows before the splits of a scan, and one before the end of the buffer if
the last chunk is no split and there is room. -/
theorem Table.fillWindows_eq (params : Params) (data : Buffer) :
    fillWindows params data =
      (chunkSplits params.detector data 0).map (.before data params.minChunk) ++
        if data.size - params.detector.lastStart data < params.minChunk ∧
            params.minChunk ≤ data.size then [.before data params.minChunk data.size] else [] := by
  have hsplits : chunkSplits params.detector data 0 =
      longEnds params.minChunk 0 (params.detector.chunkEnds data).toList := by
    show _ = longEnds params.detector.minChunk 0 (params.detector.chunkEnds data).toList
    simp [chunkSplits]
  have hfilter : (params.detector.chunkEnds data).toList.filter (params.minChunk ≤ ·) =
      longEnds params.minChunk 0 (params.detector.chunkEnds data).toList ++
        if data.size - params.detector.lastStart data < params.minChunk ∧
            params.minChunk ≤ data.size then [data.size] else [] :=
    params.detector.filter_chunkEnds data
  rw [fillWindows, hfilter, List.map_append, ← hsplits]
  split <;> rfl

namespace Scan

variable {data : Buffer} {history : Nat} {scan mid after : Scan data}

/-! ## Collecting call by call -/

theorem runInto_of_some {item : Sequence} (hnext : scan.next = .ok (some item, mid))
    (found : Array Sequence) (count : Nat) :
    scan.runInto found (count + 1) = mid.runInto (found.push item) count := by
  rw [runInto, hnext]

theorem runInto_of_none (hnext : scan.next = .ok (none, mid)) (found : Array Sequence)
    (count : Nat) : scan.runInto found (count + 1) = .ok (found, mid) := by
  rw [runInto, hnext]

/-- Past its end a scan has no more items and stays as it is. -/
theorem runInto_of_rest (hrest : scan.next = .ok (none, scan)) (found : Array Sequence)
    (count : Nat) : scan.runInto found count = .ok (found, scan) := by
  cases count with
  | zero => rfl
  | succ count => exact runInto_of_none hrest found count

/-- A scan that is over has no more items. -/
theorem Sound.next_of_done (h : scan.Sound history) (hdone : scan.done = true) :
    scan.next = .ok (none, scan) :=
  (Move.rest (h.pending_eq hdone) hdone).next_eq_ok

/-- What was collected before is kept. -/
theorem Sound.mem_of_runInto (h : scan.Sound history) {found items : Array Sequence} {count : Nat}
    (hrun : scan.runInto found count = .ok (items, after)) {item : Sequence}
    (hmem : item ∈ found) : item ∈ items := by
  obtain ⟨_, more, _, hmore, _⟩ := h.exists_runInto found count
  cases hrun.symm.trans hmore
  exact Array.mem_append_left _ hmem

/-- A match that the first call finds is collected: that call hands it out or the next one does. -/
theorem Sound.copy_mem_of_concludes (h : mid.Sound history) {answer : Option Sequence}
    (hdescribed : mid.Described history [answer]) (hnext : scan.next = .ok (answer, mid))
    {m : Match} (hconcludes : Concludes answer mid (some m)) {items : Array Sequence}
    (hcollect : scan.collect = .ok (items, after)) : .copy m ∈ items := by
  rcases hconcludes with ⟨rfl | hpending, _⟩
  · have hrest : mid.runInto (#[].push (.copy m)) data.size = .ok (items, after) :=
      (runInto_of_some hnext #[] data.size).symm.trans hcollect
    exact h.mem_of_runInto hrest Array.mem_push_self
  · -- the literals before the match come first
    cases answer with
    | none =>
      have hdone := hdescribed.ended List.mem_cons_self
      cases hpending.symm.trans (h.pending_eq hdone)
    | some item =>
      obtain ⟨hfound, hstop⟩ := hdescribed.waiting m hpending
      have hpos := h.valid.minMatchLength_pos
      have hlong := hfound.long
      have hanchor := h.anchor_le
      have hposition := mid.position_le
      obtain ⟨count, hcount⟩ : ∃ count, data.size = count + 1 := ⟨data.size - 1, by omega⟩
      have hmove : mid.Move [] [some (.copy m)] { mid with pending := none } := .hand hpending
      have hrest : ({ mid with pending := none } : Scan data).runInto
          ((#[].push item).push (.copy m)) count = .ok (items, after) := by
        rw [← runInto_of_some hmove.next_eq_ok, ← hcount, ← runInto_of_some hnext]
        exact hcollect
      exact (h.move hmove).mem_of_runInto hrest Array.mem_push_self

/-- A collection that begins where a scan rests has a match, or the first call filed the windows
before all long chunks of the rest of the buffer and nothing was filed after it. -/
theorem Sound.silent_or_found (h : scan.Sound history) (hdescribed : scan.Described history [])
    (hrested : scan.Rested) (hs : scan.Searching) {items : Array Sequence}
    (hcollect : scan.collect = .ok (items, after)) :
    (∃ m, .copy m ∈ items) ∨
      after.table = scan.table.recordAll ((chunkSplits scan.detector data scan.anchor).map
        (.before data scan.detector.minChunk)) := by
  obtain ⟨probed, found, answer, mid, hchunks⟩ := hrested.exists_probesChunks h hs
  have hmid := h.run hchunks.run
  cases found with
  | some m =>
    left
    have hanswered := hdescribed.run h hchunks.run
    exact ⟨m, hmid.copy_mem_of_concludes hanswered hchunks.next_eq hchunks.concludes hcollect⟩
  | none =>
    right
    have hrest := hmid.next_of_done hchunks.concludes
    obtain rfl : after = mid := by
      cases answer with
      | none =>
        have hall := runInto_of_none hchunks.next_eq #[] data.size
        cases hcollect.symm.trans hall
        rfl
      | some item =>
        have hall := (runInto_of_some hchunks.next_eq #[] data.size).trans
          (runInto_of_rest hrest _ _)
        cases hcollect.symm.trans hall
        rfl
    rw [← hchunks.all rfl, Table.recordAll_eq_insertAll]
    exact hchunks.table_eq

/-- **Filling is scanning without matches.** In a table of the right size, whatever it holds, a
complete scan without a match leaves what filling leaves, the slots and the places of the next
writes included. Only if the last chunk is too short to be probed and the buffer has room for a
window, filling files one window more, the one that ends with the buffer. -/
theorem silent_scan_fills (params : Params) (data : Buffer) (table : Table)
    (hvalid : params.validate = .ok ()) (hsize : data.size < sizeBound)
    (hfits : table.fits params = .ok true) :
    ∃ detector scan items after filled, Detector.ofParams params = .ok detector ∧
      start params data 0 table = .ok (.running scan) ∧
      scan.collect = .ok (items, after) ∧ after.next = .ok (none, after) ∧
      table.fill data params = .ok filled ∧
      ((∀ m, .copy m ∉ items) →
        if data.size - detector.lastStart data < params.minMatchLength ∧
            params.minMatchLength ≤ data.size then
          filled = after.table.insert
            (.ofWindow (data.extract (data.size - params.minMatchLength) data.size))
            (data.size - params.minMatchLength).toUInt32
        else filled = after.table) := by
  have valid := Params.validate_eq_ok_iff.mp hvalid
  obtain ⟨base, hbase, hstart, sound⟩ := start_eq_running table valid (Nat.zero_le _) hsize
  obtain rfl : base = table := by
    rw [tableFor, hfits] at hbase
    exact (Except.ok.inj hbase).symm
  rw [historyWindows_zero] at hstart sound
  have hdescribed : (initial params (Nat.zero_le data.size) (base.recordAll [])).Described 0 [] :=
    described_initial (Nat.zero_le _)
  obtain ⟨_, items, after, hcollect, hrun⟩ := sound.exists_collect hdescribed
  have hdone : after.done = true := (hdescribed.run sound hrun).ended (by simp)
  refine ⟨params.detector, _, items.toArray, after, _, valid.detector_eq, hstart, hcollect,
    (sound.run hrun).next_of_done hdone, Table.fill_eq valid, ?_⟩
  intro hsilent
  rcases sound.silent_or_found hdescribed (fun _ => ⟨rfl, rfl, rfl⟩) ⟨rfl, rfl⟩ hcollect with
    ⟨m, hmem⟩ | htable
  · exact absurd hmem (hsilent m)
  · have hafter : after.table = base.recordAll
        ((chunkSplits params.detector data 0).map (.before data params.minChunk)) := htable
    rw [Table.fillWindows_eq, Table.recordAll_append, ← hafter]
    show if data.size - params.detector.lastStart data < params.minChunk ∧
      params.minChunk ≤ data.size then _ else _
    split <;> rfl

/-! ### Two bytes after the only split

The last chunk is not probed, but filling files the window of its two bytes and the two before. -/

def unlikeData : Buffer := #[1, 2, 3, 4, 5, 6]

theorem short_last_chunk_is_filled :
    hintedParams.validate = .ok () ∧ unlikeData.size < sizeBound ∧
      (Table.empty 6 0).fits hintedParams = .ok true ∧
      ∃ scan after filled, start hintedParams unlikeData 0 (.empty 6 0) = .ok (.running scan) ∧
        scan.collect = .ok (#[.literals ⟨0, 6⟩], after) ∧
        (Table.empty 6 0).fill unlikeData hintedParams = .ok filled ∧
        filled = after.table.insert (.ofWindow #[3, 4, 5, 6]) 2 := by
  have hvalid : hintedParams.validate = .ok () := by decide
  have hsize : unlikeData.size < sizeBound := by decide
  have hfits : (Table.empty 6 0).fits hintedParams = .ok true := by decide
  obtain ⟨detector, scan, items, after, filled, hdetector, hstart, hcollect, _, hfill, hsilent⟩ :=
    silent_scan_fills hintedParams unlikeData (.empty 6 0) hvalid hsize hfits
  have hsame := (Params.validate_eq_ok_iff.mp hvalid).detector_eq
  obtain rfl : hintedParams.detector = detector := Except.ok.inj (hsame.symm.trans hdetector)
  have hcollected : collected hintedParams unlikeData 0 (.empty 6 0) =
      some #[.literals ⟨0, 6⟩] := by
    decide +kernel
  simp only [collected, hstart, hcollect] at hcollected
  obtain rfl : items = #[.literals ⟨0, 6⟩] := Option.some.inj hcollected
  have hlast : hintedParams.detector.lastStart unlikeData = 4 := by decide +kernel
  have hfilled := hsilent (by simp)
  rw [hlast, if_pos (by decide)] at hfilled
  exact ⟨hvalid, hsize, hfits, scan, after, filled, hstart, hcollect, hfill, hfilled⟩

end Scan

end LongMatch
