import LongMatch.Proofs.Index.Recent
import LongMatch.Proofs.Scan.Description
/-!
# LongMatch.Proofs.Scan.Recall: a repeat that is still in the table is found

A window that was filed earlier in the same scan, has the bytes of the window at a split and is
within reach, is met by the probe there unless its bucket took in as many windows since as it has
slots. Three parts come together: equal bytes have equal keys, so the entry is in the bucket that is
probed and its checksum agrees; the bucket forgets in the order of filing
(`Table.entry_mem_entries`); and a survey keeps the longest run (`Probe.reaches_of_mem`). The result
is `recent_repeats_are_found`.
-/

namespace LongMatch.Scan

open Sequence (matchedTo)

variable {data : Buffer} {history : Nat} {params : Params} {scan after : Scan data}
  {roll : Roll data} {windows : List Window} {answers : List (Option Sequence)}

/-! ## One probe -/

/-- A window lies before the one at a split, within reach, and has the same bytes. -/
structure Repeated (params : Params) (data : Buffer) (split : Nat) (window : Window) : Prop where
  start_lt : window.start < split - params.minMatchLength
  near : split - params.minMatchLength - window.start ≤ 2 ^ params.windowLog
  same : data.extract window.start (window.start + params.minMatchLength) =
    data.extract (split - params.minMatchLength) split

variable {window : Window} {split : Nat}

/-- Equal bytes are filed under one key. -/
theorem Repeated.key_eq (h : Repeated scan.params data split window)
    (htaken : window.Taken data scan.params.minChunk) :
    window.key = (scan.windowAt split).key :=
  htaken.key_eq.trans (congrArg Key.ofWindow h.same)

/-- The entry of a repeated window may be matched. -/
theorem Repeated.eligible (h : Repeated scan.params data split window)
    (htaken : window.Taken data scan.params.minChunk) (hstorable : window.Storable) :
    (scan.probeOf split).eligible window.entry = true := by
  apply Probe.eligible_iff.mpr
  rw [hstorable.offset_entry]
  refine ⟨?_, h.start_lt, h.near⟩
  exact congrArg Key.checksum (h.key_eq htaken)

/-- The bytes of a repeated window are a common run. -/
theorem Repeated.agreeFrom (h : Repeated scan.params data split window)
    (hroom : scan.params.minMatchLength ≤ split) (hsplit : split ≤ data.size) :
    data.AgreeFrom window.start (split - scan.params.minMatchLength)
      scan.params.minMatchLength := by
  refine ⟨by omega, ?_⟩
  intro k hk
  have hstart := h.start_lt
  have hbyte := congrArg (fun bytes : Buffer => bytes[k]?) h.same
  simp only [Array.getElem?_extract] at hbyte
  rwa [if_pos (by omega), if_pos (by omega)] at hbyte

/-- An entry of the probed bucket that stands for a repeated window gives a match, and the match is
no shorter than the common run of the two positions. -/
theorem Sound.exists_probeAt_of_mem (h : scan.Sound history) (hs : scan.Searching)
    (hadvance : scan.roll.advance scan.detector.splits = (roll, true))
    (hrepeated : Repeated scan.params data roll.position window)
    (htaken : window.Taken data scan.params.minChunk)
    (hmem : window.entry ∈ scan.table.entries window.key) :
    ∃ survey table m, scan.probeAt roll.position = .ok (survey, table) ∧ survey.best = some m ∧
      ∀ forward backward,
        data.AgreeFrom window.start (roll.position - scan.params.minMatchLength) forward →
        data.AgreeBefore window.start (roll.position - scan.params.minMatchLength) 0 scan.anchor
          backward →
        forward + backward ≤ m.length := by
  have hroom := h.anchor_add_le hs hadvance
  have hstorable := htaken.storable h.size_lt
  have hrange := h.inRange_probeOf hroom roll.position_le
  have heligible := hrepeated.eligible htaken hstorable
  obtain ⟨run, before, hrun, hbefore, _, _, hextend⟩ := Probe.extend_eq hrange heligible
  rw [hstorable.offset_entry] at hrun hbefore
  have hstart := hrepeated.start_lt
  have hstop := roll.position_le
  -- the forward run covers the window, so the match is not too short
  have hwindow := hrepeated.agreeFrom (by omega) roll.position_le
  have hlong : scan.params.minMatchLength ≤ run + before :=
    Nat.le_trans (hwindow.le_forwardRun hstart hrun) (Nat.le_add_right _ _)
  obtain ⟨survey, hsurvey, _⟩ := h.exists_surveyAt hroom roll.position_le
  rw [hrepeated.key_eq htaken] at hmem
  obtain ⟨m, hbest, hle⟩ := Probe.reaches_of_mem hsurvey hmem heligible hextend hlong
  refine ⟨survey, scan.table.record (scan.windowAt roll.position), m,
    h.probeAt_of_surveyAt hroom roll.position_le hsurvey, hbest, ?_⟩
  intro forward backward hforward hbackward
  have hf := hforward.le_forwardRun hstart hrun
  have hb := hbackward.le_backwardRun (by omega) (by omega) hbefore
  exact Nat.le_trans (Nat.add_le_add hf hb) hle

/-! ## Anywhere in a scan -/

/-- **No repeat that is still filed is missed.** In a scan that started, take any split that it
probes, in any of its calls, and the log of all windows filed before, for the history and by the
probes. If a window of the log repeats the one at the split, before it and within reach, and fewer
windows than a bucket has slots came to its bucket since, then the probe finds a match, the call
under way concludes with it, and the match is no shorter than the common run of the two positions,
up to the end of the buffer and down to the start of the buffer and the end of the match before. -/
theorem recent_repeats_are_found (params : Params) (data : Buffer) (history : Nat) (table : Table)
    (scan : Scan data) (hstart : start params data history table = .ok (.running scan)) :
    scan.Traced ∧ ∃ base, tableFor params table = .ok base ∧
      ∀ windows answers after roll, scan.Run windows answers after → after.Searching →
        after.roll.advance after.detector.splits = (roll, true) →
        after.table = base.insertAll
            ((historyWindows params data history ++ windows).map Window.insertion) ∧
          ∀ older repeated newer,
            historyWindows params data history ++ windows = older ++ repeated :: newer →
            Repeated params data roll.position repeated →
            (base.shelved repeated.key newer).length < 2 ^ params.bucketSizeLog →
            ∃ survey filed m answer found, after.probeAt roll.position = .ok (survey, filed) ∧
              survey.best = some m ∧ after.next = .ok (answer, found) ∧
                Concludes answer found (some m) ∧
                  ∀ forward backward,
                    data.AgreeFrom repeated.start (roll.position - params.minMatchLength) forward →
                    data.AgreeBefore repeated.start (roll.position - params.minMatchLength) 0
                      (matchedTo history (itemsOf answers)) backward →
                    forward + backward ≤ m.length := by
  obtain ⟨hhistory, base, valid, hbase, hsized, rfl, sound⟩ := of_start_eq_running hstart
  refine ⟨sound.traced, base, hbase, ?_⟩
  intro windows answers after roll hrun hs hadvance
  have hafter := sound.run hrun
  have hparams := (sound.frame_of_run hrun).1
  have hlogged := sound.table_of_run hrun
  refine ⟨hlogged.trans (Table.recordAll_eq_insertAll ..), ?_⟩
  intro older repeated newer hlog hrepeated hrecent
  have htaken : repeated.Taken data params.minChunk := by
    apply sound.taken_of_mem_log hrun
    show repeated ∈ historyWindows params data history ++ windows
    rw [hlog]
    exact List.mem_append_right _ List.mem_cons_self
  -- the bucket has not forgotten the window
  have hmem : repeated.entry ∈ after.table.entries repeated.key := by
    rw [hlogged, hlog]
    apply Table.entry_mem_entries (hsized.bucketSize_le valid) (htaken.storable sound.size_lt)
    rwa [hsized.bucketSizeLog_of_valid valid]
  -- the bytes not yet handed out begin where the last match ended
  have hanchor : matchedTo history (itemsOf answers) = after.anchor :=
    ((described_initial hhistory).run sound hrun).matched hs
  rw [hanchor]
  rw [show params = after.params from hparams.symm] at hrepeated htaken ⊢
  obtain ⟨survey, filed, m, hprobe, hbest, hlong⟩ :=
    hafter.exists_probeAt_of_mem hs hadvance hrepeated htaken hmem
  obtain ⟨answer, found, hmove, hconcludes⟩ := hafter.exists_found_move hs hadvance hprobe hbest
  exact ⟨survey, filed, m, answer, found, hprobe, hbest, hmove.next_eq_ok, hconcludes, hlong⟩

/-! ### The oldest of two slots

The history holds two windows that share a bucket of two slots, and the bytes after it repeat the
one filed first. -/

def sharedParams : Params := ⟨10, 6, 4, 0, 1⟩

def sharedData : Buffer := #[1, 2, 3, 4, 5, 6, 7, 0, 1, 2, 3, 4, 9]

def sharedLog : List Window := [.before sharedData 4 4, .before sharedData 4 8]

def sharedRoll : Roll sharedData := .start ⟨8, by decide⟩

theorem sharedRoll_advance :
    ∃ roll, sharedRoll.advance sharedParams.detector.splits = (roll, true) ∧
      roll.position = 12 := by
  have hsplit : (sharedRoll.advance sharedParams.detector.splits).2 = true := by decide +kernel
  exact ⟨_, Prod.ext rfl hsplit, by decide +kernel⟩

theorem oldest_slot_is_found :
    ∃ scan roll base survey filed m answer found,
      start sharedParams sharedData 8 (.empty 5 1) = .ok (.running scan) ∧
        scan.roll.advance scan.detector.splits = (roll, true) ∧ roll.position = 12 ∧
        tableFor sharedParams (.empty 5 1) = .ok base ∧
        scan.table = base.insertAll (sharedLog.map Window.insertion) ∧
        Repeated sharedParams sharedData 12 (.before sharedData 4 4) ∧
        (base.shelved (Window.before sharedData 4 4).key [.before sharedData 4 8]).length < 2 ∧
        scan.probeAt 12 = .ok (survey, filed) ∧ survey.best = some m ∧
        scan.next = .ok (answer, found) ∧ Concludes answer found (some m) ∧ 4 ≤ m.length := by
  have valid : sharedParams.Valid := Params.validate_eq_ok_iff.mp (by decide)
  obtain ⟨scan, hstart, hroll, hdetector, hs⟩ :=
    @exists_searching sharedData sharedParams 8 (.empty 5 1) valid (by decide) (by decide)
  obtain ⟨roll, hadvance, hposition⟩ := sharedRoll_advance
  rw [sharedRoll, ← hroll, ← hdetector] at hadvance
  obtain ⟨_, base, hbase, hprobes⟩ := recent_repeats_are_found sharedParams sharedData 8
    (.empty 5 1) scan hstart
  obtain ⟨htable, hfound⟩ := hprobes [] [] scan roll .refl hs hadvance
  have hlog : historyWindows sharedParams sharedData 8 = sharedLog := by decide +kernel
  rw [List.append_nil, hlog] at htable hfound
  rw [hposition] at hfound
  have hrepeated : Repeated sharedParams sharedData 12 (.before sharedData 4 4) :=
    ⟨by decide, by decide, by decide⟩
  have hrecent : (base.shelved (Window.before sharedData 4 4).key
      [.before sharedData 4 8]).length < 2 := Nat.lt_succ_of_le (List.length_filter_le _ _)
  have hforward : sharedData.AgreeFrom 0 8 4 := ⟨by decide, by decide⟩
  have hbackward : sharedData.AgreeBefore 0 8 0 8 0 := ⟨by decide, by decide, nofun⟩
  obtain ⟨survey, filed, m, answer, found, hprobe, hbest, hnext, hconcludes, hlong⟩ :=
    hfound [] (.before sharedData 4 4) [.before sharedData 4 8] rfl hrepeated hrecent
  exact ⟨scan, roll, base, survey, filed, m, answer, found, hstart, hadvance, hposition, hbase,
    htable, hrepeated, hrecent, hprobe, hbest, hnext, hconcludes, hlong 4 0 hforward hbackward⟩

end LongMatch.Scan
