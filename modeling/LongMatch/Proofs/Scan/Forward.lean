import LongMatch.Proofs.Scan.Recall
import LongMatch.Proofs.Scan.Reuse
/-!
# LongMatch.Proofs.Scan.Forward: without look-alikes a scan only goes forward

A scan that starts with a table without entries files windows of its own buffer only, so every entry
that a probe meets stands for one of them: `Table.Faithful`. If moreover no two different windows of
the buffer are filed in the same bucket with the same checksum (`Distinguished`), an eligible entry
has the bytes of the probed window. Its run then covers the window, so it is never rejected, and the
match that a probe finds ends at the split or later (`Sound.clean_surveyAt`). So no move goes back,
and each split probed has the shortest match's length of new bytes behind it: `Onward`, which every
move keeps. The result is `distinguished_scan_goes_forward`.
-/

namespace LongMatch

/-- The table holds no entry, or it has not the size asked for and a fresh one is used instead. -/
def Table.Blank (params : Params) (table : Table) : Prop :=
  (∀ key, table.entries key = []) ∨ table.fits params = .ok false

/-- The key of the window of least length that starts at a place. -/
def keyAt (params : Params) (data : Buffer) (start : Nat) : Key :=
  .ofWindow (data.extract start (start + params.minMatchLength))

/-- Windows of the buffer that are filed in the same bucket with the same checksum have the same
bytes. -/
def Distinguished (params : Params) (data : Buffer) : Prop :=
  ∀ i j, i + params.minMatchLength ≤ data.size → j + params.minMatchLength ≤ data.size →
    (keyAt params data i).bucketIndex (params.hashLog - Table.bucketSizeLogOf params) =
      (keyAt params data j).bucketIndex (params.hashLog - Table.bucketSizeLogOf params) →
    (keyAt params data i).checksum = (keyAt params data j).checksum →
    data.extract i (i + params.minMatchLength) = data.extract j (j + params.minMatchLength)

/-- The destination of the match contains the `length` bytes before the split. -/
structure Match.Covers (length split : Nat) (m : Match) : Prop where
  start_le : m.destination + length ≤ split
  le_stop : split ≤ m.destination + m.length

theorem Window.Taken.stop_le {data : Buffer} {length : Nat} {window : Window}
    (h : window.Taken data length) : window.start + length ≤ data.size := by
  obtain ⟨stop, hroom, hstop, rfl⟩ := h
  show stop - length + length ≤ data.size
  omega

theorem Table.Sized.bucketLog_eq {params : Params} {table : Table} (h : table.Sized params) :
    table.bucketLog = params.hashLog - Table.bucketSizeLogOf params := by
  have hsum := h.sum_eq
  rw [← h.bucketSizeLog_eq]
  omega

namespace Scan

variable {data : Buffer} {history : Nat} {scan after : Scan data} {roll : Roll data}
  {survey : Survey} {table : Table} {m : Match} {windows : List Window}
  {answers : List (Option Sequence)} {split : Nat}

/-! ## A probe -/

/-- An eligible entry of the probed bucket has the bytes of the probed window. -/
theorem Sound.repeated_of_eligible (h : scan.Sound history)
    (hfaithful : scan.table.Faithful data scan.params.minChunk)
    (hdistinct : Distinguished scan.params data)
    (hroom : scan.params.minMatchLength ≤ split) (hsplit : split ≤ data.size) {entry : Entry}
    (hmem : entry ∈ scan.table.entries (scan.windowAt split).key)
    (heligible : (scan.probeOf split).eligible entry = true) :
    ∃ window, Repeated scan.params data split window ∧ window.start = entry.offset.toNat := by
  obtain ⟨window, htaken, hindex, rfl⟩ := hfaithful _ _ hmem
  have hoffset := (htaken.storable h.size_lt).offset_entry
  obtain ⟨hchecksum, hlt, hnear⟩ := Probe.eligible_iff.mp heligible
  rw [hoffset] at hlt hnear
  refine ⟨window, ⟨hlt, hnear, ?_⟩, hoffset.symm⟩
  have hstop : split - scan.params.minMatchLength + scan.params.minMatchLength = split := by omega
  have hkey : window.key = keyAt scan.params data window.start := htaken.key_eq
  have hkey' : (scan.windowAt split).key =
      keyAt scan.params data (split - scan.params.minMatchLength) := by
    rw [keyAt, hstop]
    rfl
  have hbucket : window.key.bucketIndex scan.table.bucketLog =
      (scan.windowAt split).key.bucketIndex scan.table.bucketLog := hindex
  have hsum : window.key.checksum = (scan.windowAt split).key.checksum := hchecksum
  rw [hkey, hkey', h.sized.bucketLog_eq] at hbucket
  rw [hkey, hkey'] at hsum
  have hsame := hdistinct window.start (split - scan.params.minMatchLength) htaken.stop_le
    (by omega) hbucket hsum
  rwa [hstop] at hsame

/-- The run of an eligible entry covers the probed window. -/
theorem Sound.covers_of_eligible (h : scan.Sound history)
    (hfaithful : scan.table.Faithful data scan.params.minChunk)
    (hdistinct : Distinguished scan.params data)
    (hroom : scan.anchor + scan.params.minChunk ≤ split) (hsplit : split ≤ data.size)
    {entry : Entry} (hmem : entry ∈ scan.table.entries (scan.windowAt split).key)
    (heligible : (scan.probeOf split).eligible entry = true) :
    ∃ m, (scan.probeOf split).extend data entry = .ok m ∧
      m.Covers scan.params.minMatchLength split := by
  have hmin : scan.params.minMatchLength ≤ split := Nat.le_trans (Nat.le_add_left _ _) hroom
  obtain ⟨window, hrepeated, hoffset⟩ :=
    h.repeated_of_eligible hfaithful hdistinct hmin hsplit hmem heligible
  obtain ⟨forward, backward, hforward, _, _, hback, hextend⟩ :=
    Probe.extend_eq (h.inRange_probeOf hroom hsplit) heligible
  rw [← hoffset] at hforward
  have hlong : scan.params.minMatchLength ≤ forward :=
    (hrepeated.agreeFrom hmin hsplit).le_forwardRun hrepeated.start_lt hforward
  refine ⟨_, hextend, ?_, ?_⟩
  · show split - scan.params.minMatchLength - backward + scan.params.minMatchLength ≤ split
    omega
  · have hback' : backward ≤ split - scan.params.minMatchLength := hback
    show split ≤ split - scan.params.minMatchLength - backward + (forward + backward)
    omega

/-- A survey rejects no entry, finds a match if there is a candidate, and the match covers the
probed window. -/
structure Clean (params : Params) (split : Nat) (survey : Survey) : Prop where
  rejected_eq : survey.rejected = 0
  found : 0 < survey.candidates → ∃ m, survey.best = some m
  covers : ∀ m, survey.best = some m → m.Covers params.minMatchLength split

theorem Sound.clean_surveyAt (h : scan.Sound history)
    (hfaithful : scan.table.Faithful data scan.params.minChunk)
    (hdistinct : Distinguished scan.params data)
    (hroom : scan.anchor + scan.params.minChunk ≤ split) (hsplit : split ≤ data.size)
    (hsurvey : scan.surveyAt split = .ok survey) : Clean scan.params split survey := by
  have hcovers : ∀ {entry : Entry}, entry ∈ scan.table.entries (scan.windowAt split).key →
      (scan.probeOf split).eligible entry = true →
      ∃ m, (scan.probeOf split).extend data entry = .ok m ∧
        m.Covers scan.params.minMatchLength split := by
    intro entry hmem heligible
    exact h.covers_of_eligible hfaithful hdistinct hroom hsplit hmem heligible
  have hfold : (scan.table.entries (scan.windowAt split).key).foldlM
      ((scan.probeOf split).visit data) .empty = .ok survey := hsurvey
  refine ⟨?_, ?_, ?_⟩
  · refine Probe.rejected_foldlM_visit hfold ?_
    intro entry hmem heligible m hextend
    obtain ⟨m', hextend', hm'⟩ := hcovers hmem heligible
    cases hextend.symm.trans hextend'
    show scan.params.minMatchLength ≤ m.length
    have hstart := hm'.start_le
    have hstop := hm'.le_stop
    omega
  · intro hpos
    have hcount : survey.candidates = 0 + _ := Probe.candidates_foldlM_visit hfold
    rw [hcount, Nat.zero_add, List.countP_pos_iff] at hpos
    obtain ⟨entry, hmem, heligible⟩ := hpos
    obtain ⟨m, hextend, hm⟩ := hcovers hmem heligible
    have hlong : scan.params.minMatchLength ≤ m.length := by
      have hstart := hm.start_le
      have hstop := hm.le_stop
      omega
    obtain ⟨best, hbest, _⟩ := Probe.reaches_of_mem hfold hmem heligible hextend hlong
    exact ⟨best, hbest⟩
  · intro m hbest
    rcases Probe.best_foldlM_visit hfold hbest with hnone | ⟨entry, hmem, heligible, hextend⟩
    · cases hnone
    · obtain ⟨m', hextend', hm'⟩ := hcovers hmem heligible
      cases hextend.symm.trans hextend'
      exact hm'

theorem Sound.clean_of_probeAt (h : scan.Sound history) (hs : scan.Searching)
    (hfaithful : scan.table.Faithful data scan.params.minChunk)
    (hdistinct : Distinguished scan.params data)
    (hadvance : scan.roll.advance scan.detector.splits = (roll, true))
    (hprobe : scan.probeAt roll.position = .ok (survey, table)) :
    Clean scan.params roll.position survey := by
  have hroom := h.anchor_add_le hs hadvance
  rw [h.probeAt_eq hroom roll.position_le] at hprobe
  obtain ⟨survey', hsurvey, hpair⟩ := Checked.bind_eq_ok_iff.mp hprobe
  cases hpair
  exact h.clean_surveyAt hfaithful hdistinct hroom roll.position_le hsurvey

/-! ## Every move goes forward -/

/-- The table is faithful to a buffer without look-alikes, no candidate was rejected, and the splits
probed are paid for by the distance covered. -/
structure Onward (history : Nat) (scan : Scan data) : Prop where
  distinct : Distinguished scan.params data
  faithful : scan.table.Faithful data scan.params.minChunk
  rejected_eq : scan.stats.rejected = 0
  paid : history + scan.stats.boundaries * scan.params.minMatchLength + scan.roll.length ≤
    scan.position

theorem Onward.ahead (h : scan.Onward history) {count : Nat}
    (hahead : scan.roll.Ahead roll count) :
    ({ scan with roll } : Scan data).Onward history ∧ scan.position ≤ roll.position := by
  obtain ⟨hposition, hlength, _⟩ := hahead
  have hpaid := h.paid
  unfold position at hpaid ⊢
  refine ⟨⟨h.distinct, h.faithful, h.rejected_eq, ?_⟩, by omega⟩
  show history + scan.stats.boundaries * scan.params.minMatchLength + roll.length ≤ roll.position
  omega

theorem Onward.probed (h : scan.Onward history) (sound : scan.Sound history) (hs : scan.Searching)
    (hadvance : scan.roll.advance scan.detector.splits = (roll, true))
    (hprobe : scan.probeAt roll.position = .ok (survey, table)) :
    (scan.probed roll survey table).Onward history ∧ scan.position ≤ roll.position := by
  obtain ⟨count, _, hahead, hsplit⟩ := Roll.advance_eq_true hadvance
  obtain ⟨hrolled, hposition⟩ := h.ahead hahead
  have hclean := sound.clean_of_probeAt hs h.faithful h.distinct hadvance hprobe
  obtain ⟨rfl, _⟩ := sound.probe_spec hs hadvance hprobe
  have hchunk : scan.params.minMatchLength ≤ roll.length := by
    have hmin := Detector.minChunk_le_of_splits hsplit
    rwa [sound.detector_eq] at hmin
  refine ⟨⟨h.distinct, ?_, ?_, ?_⟩, hposition⟩
  · have hroom := sound.anchor_add_le hs hadvance
    have htaken : (scan.windowAt roll.position).Taken data scan.params.minChunk :=
      ⟨roll.position, by omega, roll.position_le, rfl⟩
    exact h.faithful.record (sound.sized.bucketSize_le sound.valid) htaken
  · show scan.stats.rejected + survey.rejected = 0
    rw [h.rejected_eq, hclean.rejected_eq]
  · -- the chunk is spent on this probe
    have hpaid : history + scan.stats.boundaries * scan.params.minMatchLength + roll.length ≤
        roll.position := hrolled.paid
    show history + (scan.stats.boundaries + 1) * scan.params.minMatchLength + 0 ≤ roll.position
    rw [Nat.add_mul, Nat.one_mul]
    omega

/-- The scan goes on at the split where it probed or later. -/
theorem Onward.jump (h : scan.Onward history) (hlength : scan.roll.length = 0)
    (hstop : m.destination + m.length ≤ data.size)
    (hforward : scan.position ≤ m.destination + m.length) :
    (scan.jump m hstop).Onward history := by
  refine ⟨h.distinct, h.faithful, h.rejected_eq, ?_⟩
  have hpaid := h.paid
  show history + scan.stats.boundaries * scan.params.minMatchLength + 0 ≤
    m.destination + m.length
  omega

theorem Onward.finish (h : scan.Onward history) :
    scan.finish.2.Onward history ∧ scan.finish.2.position = scan.position := by
  rcases finish_cases scan with ⟨_, hfinish⟩ | ⟨_, hfinish⟩
  · rw [hfinish]
    exact ⟨⟨h.distinct, h.faithful, h.rejected_eq, h.paid⟩, rfl⟩
  · rw [hfinish]
    exact ⟨⟨h.distinct, h.faithful, h.rejected_eq, h.paid⟩, rfl⟩

theorem Onward.move (h : scan.Onward history) (sound : scan.Sound history)
    (hmove : scan.Move windows answers after) :
    after.Onward history ∧ scan.position ≤ after.position := by
  cases hmove with
  | byte _ hnext _ => exact h.ahead (Roll.ahead_of_next? hnext)
  | pass hs hadvance hprobe _ => exact h.probed sound hs hadvance hprobe
  | @found roll survey table m item _ hs hadvance hprobe hbest hemit =>
    obtain ⟨hprobed, hposition⟩ := h.probed sound hs hadvance hprobe
    obtain ⟨_, _, hstop, hcases⟩ := sound.found_cases hs hadvance hprobe hbest hemit
    have hclean := sound.clean_of_probeAt hs h.faithful h.distinct hadvance hprobe
    have hforward : roll.position ≤ m.destination + m.length := (hclean.covers m hbest).le_stop
    have hjump := hprobed.jump rfl hstop hforward
    have hle : scan.position ≤ m.destination + m.length := Nat.le_trans hposition hforward
    rcases hcases with ⟨_, _, rfl⟩ | ⟨_, _, rfl⟩
    · exact ⟨hjump, hle⟩
    · exact ⟨⟨hjump.distinct, hjump.faithful, hjump.rejected_eq, hjump.paid⟩, hle⟩
  | ended hs hadvance =>
    obtain ⟨⟨count, hahead⟩, _⟩ := Roll.advance_eq_false hadvance
    obtain ⟨hrolled, hposition⟩ := h.ahead hahead
    obtain ⟨hfinish, hsame⟩ := hrolled.finish
    exact ⟨hfinish, hsame ▸ hposition⟩
  | hand _ => exact ⟨⟨h.distinct, h.faithful, h.rejected_eq, h.paid⟩, Nat.le_refl _⟩
  | rest _ _ => exact ⟨h, Nat.le_refl _⟩

theorem Onward.run (h : scan.Onward history) (sound : scan.Sound history)
    (hrun : scan.Run windows answers after) :
    after.Onward history ∧ scan.position ≤ after.position := by
  refine sound.run_invariant (fun hsound honward hmove => ?_) ?_ hrun
  · obtain ⟨hmid, hposition⟩ := honward
    obtain ⟨hafter, hmore⟩ := hmid.move hsound hmove
    exact ⟨hafter, Nat.le_trans hposition hmore⟩
  · exact ⟨h, Nat.le_refl _⟩

/-- A scan goes onward at every moment, between two moves as well as inside one. -/
theorem Onward.moment (h : scan.Onward history) (sound : scan.Sound history)
    (hmoment : scan.Moment after) : after.Onward history ∧ after.params = scan.params := by
  cases hmoment with
  | reached hrun => exact ⟨(h.run sound hrun).1, (sound.frame_of_run hrun).1⟩
  | taken hrun _ hnext =>
    obtain ⟨hmid, _⟩ := h.run sound hrun
    exact ⟨(hmid.ahead (Roll.ahead_of_next? hnext)).1, (sound.frame_of_run hrun).1⟩
  | probed hrun hs hadvance hprobe =>
    obtain ⟨hmid, _⟩ := h.run sound hrun
    exact ⟨(hmid.probed (sound.run hrun) hs hadvance hprobe).1, (sound.frame_of_run hrun).1⟩

/-! ## From the start on -/

/-- In place of a blank table a scan uses one without entries. -/
theorem entries_of_blank {params : Params} {base : Table} (hblank : table.Blank params)
    (valid : params.Valid) (hbase : tableFor params table = .ok base) (key : Key) :
    base.entries key = [] := by
  rcases tableFor_cases valid hbase with ⟨hfits, rfl⟩ | hfresh
  · rcases hblank with hempty | hmisfit
    · exact hempty key
    · cases hfits.symm.trans hmisfit
  · exact entries_fresh hfresh key

theorem onward_initial {params : Params} (valid : params.Valid) (hhistory : history ≤ data.size)
    (hdistinct : Distinguished params data) {base : Table} (hsized : base.Sized params)
    (hempty : ∀ key, base.entries key = []) :
    (initial params hhistory
      (base.recordAll (historyWindows params data history))).Onward history := by
  refine ⟨hdistinct, ?_, rfl, ?_⟩
  · apply (Table.faithful_of_entries hempty).recordAll (hsized.bucketSize_le valid)
    intro window hmem
    exact taken_of_mem_historyWindows hmem
  · show history + 0 * params.minMatchLength + 0 ≤ history
    omega

/-- A scan never goes back, and no probe is made in vain. -/
structure GoesForward (params : Params) (history : Nat) (scan : Scan data) : Prop where
  calls : ∀ count, ∃ answers mid answer after, scan.calls count = .ok (answers, mid) ∧
    mid.next = .ok (answer, after) ∧ mid.position ≤ after.position
  probes : ∀ windows answers mid roll, scan.Run windows answers mid → mid.Searching →
    mid.roll.advance mid.detector.splits = (roll, true) →
    ∃ survey filed, mid.probeAt roll.position = .ok (survey, filed) ∧
      Clean params roll.position survey
  moments : ∀ moment, scan.Moment moment → moment.stats.rejected = 0 ∧
    history + moment.stats.boundaries * params.minMatchLength ≤ moment.position

theorem Onward.goesForward (h : scan.Onward history) (sound : scan.Sound history) :
    scan.GoesForward scan.params history := by
  refine ⟨?_, ?_, ?_⟩
  · intro count
    obtain ⟨_, answers, mid, hcalls, hrun, _⟩ := sound.exists_calls count
    have hmid := sound.run hrun
    obtain ⟨_, answer, after, hnext, hcall⟩ := hmid.exists_next
    obtain ⟨_, hposition⟩ := (h.run sound hrun).1.run hmid hcall
    exact ⟨answers, mid, answer, after, hcalls, hnext, hposition⟩
  · intro windows answers mid roll hrun hs hadvance
    have hmid := sound.run hrun
    obtain ⟨honward, _⟩ := h.run sound hrun
    obtain ⟨survey, hprobe, _⟩ :=
      hmid.exists_probeAt (hmid.anchor_add_le hs hadvance) roll.position_le
    have hclean := hmid.clean_of_probeAt hs honward.faithful honward.distinct hadvance hprobe
    rw [(sound.frame_of_run hrun).1] at hclean
    exact ⟨survey, _, hprobe, hclean⟩
  · intro moment hmoment
    obtain ⟨honward, hparams⟩ := h.moment sound hmoment
    have hpaid := honward.paid
    rw [hparams] at hpaid
    exact ⟨honward.rejected_eq, by omega⟩

/-- **Without look-alikes a scan is one pass forward.** If the table given has no entries, or not
the size asked for, and no two different windows of the buffer share bucket and checksum, then the
position never decreases from call to call; every probe of an eligible entry finds a match, which
covers the probed window; and at every moment no candidate was rejected and the splits probed, times
the shortest match, are within the distance covered. -/
theorem distinguished_scan_goes_forward (params : Params) (data : Buffer) (history : Nat)
    (table : Table) (hvalid : params.validate = .ok ()) (hsize : data.size < sizeBound)
    (hhistory : history ≤ data.size) (hblank : table.Blank params)
    (hdistinct : Distinguished params data) :
    ∃ scan, start params data history table = .ok (.running scan) ∧
      scan.GoesForward params history := by
  have valid := Params.validate_eq_ok_iff.mp hvalid
  obtain ⟨base, hbase, hstart, sound⟩ := start_eq_running table valid hhistory hsize
  obtain ⟨_, hbase', hsized⟩ := exists_tableFor table valid
  cases hbase.symm.trans hbase'
  have honward : (initial params hhistory
      (base.recordAll (historyWindows params data history))).Onward history :=
    onward_initial valid hhistory hdistinct hsized (entries_of_blank hblank valid hbase)
  exact ⟨_, hstart, honward.goesForward sound⟩

/-- Of the nine windows the seven equal ones are filed alike, and the other two apart from them. -/
theorem distinguished_writtenData : Distinguished hintedParams writtenData := by
  have hall : ∀ i, i < 9 → ∀ j, j < 9 →
      (keyAt hintedParams writtenData i).bucketIndex 6 =
        (keyAt hintedParams writtenData j).bucketIndex 6 →
      (keyAt hintedParams writtenData i).checksum = (keyAt hintedParams writtenData j).checksum →
      writtenData.extract i (i + 4) = writtenData.extract j (j + 4) := by
    decide +kernel
  intro i j hi hj
  have hroom : hintedParams.minMatchLength = 4 := rfl
  have hsize : writtenData.size = 12 := rfl
  exact hall i (by omega) j (by omega)

/-- The history is found again at the first split. -/
theorem repeated_byte_goes_forward :
    hintedParams.validate = .ok () ∧ writtenData.size < sizeBound ∧ 4 ≤ writtenData.size ∧
      (Table.empty 6 0).Blank hintedParams ∧ Distinguished hintedParams writtenData ∧
      ∃ scan, start hintedParams writtenData 4 (.empty 6 0) = .ok (.running scan) ∧
        scan.GoesForward hintedParams 4 ∧
        ∃ mid after, scan.calls 0 = .ok ([], mid) ∧
          mid.next = .ok (some (.copy ⟨0, 4, 6⟩), after) ∧ mid.position ≤ after.position := by
  have hvalid : hintedParams.validate = .ok () := by decide
  have hsize : writtenData.size < sizeBound := by decide
  have hblank : (Table.empty 6 0).Blank hintedParams := Or.inl (Table.entries_empty 6 0)
  obtain ⟨scan, hstart, hforward⟩ := distinguished_scan_goes_forward hintedParams writtenData 4
    (.empty 6 0) hvalid hsize (by decide) hblank distinguished_writtenData
  refine ⟨hvalid, hsize, by decide, hblank, distinguished_writtenData, scan, hstart, hforward, ?_⟩
  obtain ⟨answers, mid, answer, after, hcalls, hnext, hposition⟩ := hforward.calls 0
  have houtcome : outcome hintedParams writtenData 4 (.empty 6 0) 1 =
      some ([some (.copy ⟨0, 4, 6⟩)], 4) := by decide +kernel
  simp only [outcome, hstart, calls_succ hcalls hnext] at houtcome
  cases hcalls
  cases (Prod.mk.inj (Option.some.inj houtcome)).1
  exact ⟨scan, after, rfl, hnext, hposition⟩

end Scan

end LongMatch
