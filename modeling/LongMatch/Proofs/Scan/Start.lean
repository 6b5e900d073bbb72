import LongMatch.Proofs.Scan.Sound
/-!
# LongMatch.Proofs.Scan.Start: what asking for a scan gives

A request is refused for one of three reasons, in this order, or a scan starts: from the table given
if it has the right size and else from a fresh one, with the windows of the history filed
(`start_eq_running`). Asking for a scan never faults, whatever the settings, the buffer, the history
and the table: `start_eq_refused_iff` and `start_eq_running` leave no case open. From there on the
table is a log of the windows of the history and those of the run: `Sound.table_of_run`.
-/

namespace LongMatch

namespace Table

variable {params : Params} {table : Table}

/-- A table fits valid settings exactly if it has the size they ask for. -/
theorem fits_eq_true_iff (valid : params.Valid) :
    table.fits params = .ok true ↔ table.Sized params := by
  have hlog : params.hashLog ≤ 30 := valid.hashLog.2
  simp only [fits, Checked.pow2_of_lt (show params.hashLog < 64 by omega), Checked.ok_bind,
    Checked.pure_eq_ok, Except.ok.injEq, Bool.and_eq_true, beq_iff_eq, capacity]
  constructor
  · rintro ⟨hcapacity, hbucket⟩
    exact ⟨hbucket, (Nat.pow_right_inj (by decide)).mp hcapacity⟩
  · rintro ⟨hbucket, hsum⟩
    exact ⟨congrArg (2 ^ ·) hsum, hbucket⟩

theorem exists_fits (table : Table) (valid : params.Valid) :
    ∃ fitting, table.fits params = .ok fitting := by
  have hlog : params.hashLog ≤ 30 := valid.hashLog.2
  rw [fits, Checked.pow2_of_lt (by omega)]
  exact ⟨_, rfl⟩

/-- Valid settings have a fresh table of the size they ask for. -/
theorem exists_ofParams (valid : params.Valid) :
    ∃ fresh, Table.ofParams params = .ok fresh ∧ fresh.Sized params := by
  have hlog : params.hashLog ≤ 30 := valid.hashLog.2
  have hbound : hashLogBound = 60 := rfl
  rw [ofParams, if_pos (by omega)]
  refine ⟨_, rfl, rfl, ?_⟩
  show params.hashLog - bucketSizeLogOf params + bucketSizeLogOf params = params.hashLog
  have hle : bucketSizeLogOf params ≤ params.hashLog := Nat.min_le_right _ _
  omega

end Table

/-- An empty buffer has no chunks. -/
theorem Detector.chunkEnds_empty (detector : Detector) : detector.chunkEnds #[] = #[] := by
  rw [chunkEnds, Chunker.collect]
  split
  · rfl
  · next stop after hnext =>
    have hless : after.roll.remaining < 0 := Chunker.remaining_next? hnext
    omega

namespace Scan

variable {data : Buffer} {params : Params} {history : Nat} {table : Table}

/-- Why a request for a scan is refused. -/
inductive Refuses (params : Params) (data : Buffer) (history : Nat) : Error → Prop
  | settings {error : Error} : params.validate = .error error → Refuses params data history error
  | history : params.validate = .ok () → data.size < history →
      Refuses params data history (.historyExceedsBuffer history data.size)
  | size : params.validate = .ok () → history ≤ data.size → sizeBound ≤ data.size →
      Refuses params data history (.bufferTooLarge data.size (sizeBound - 1))

theorem check_eq_error_iff {error : Error} :
    check params data history = .error error ↔ Refuses params data history error := by
  unfold check
  constructor
  · intro h
    split at h
    · next hinvalid =>
      cases h
      exact .settings hinvalid
    · next hvalid =>
      split at h
      · next hhistory =>
        cases h
        exact .history hvalid hhistory
      · split at h
        · cases h
          exact .size hvalid (by omega) (by assumption)
        · cases h
  · rintro (hinvalid | ⟨hvalid, hhistory⟩ | ⟨hvalid, hhistory, hsize⟩)
    · rw [hinvalid]
    · simp only [hvalid, if_pos hhistory]
    · simp only [hvalid, if_neg (Nat.not_lt.mpr hhistory), if_pos hsize]

theorem check_eq_ok_iff :
    check params data history = .ok () ↔
      params.Valid ∧ history ≤ data.size ∧ data.size < sizeBound := by
  unfold check
  rw [← Params.validate_eq_ok_iff]
  constructor
  · intro h
    split at h
    · cases h
    · next hvalid =>
      split at h
      · cases h
      · split at h
        · cases h
        · exact ⟨hvalid, by omega, by omega⟩
  · rintro ⟨hvalid, hhistory, hsize⟩
    simp only [hvalid, if_neg (Nat.not_lt.mpr hhistory), if_neg (Nat.not_le.mpr hsize)]

/-! ## The table -/

theorem exists_tableFor (table : Table) (valid : params.Valid) :
    ∃ base, tableFor params table = .ok base ∧ base.Sized params := by
  obtain ⟨fitting, hfits⟩ := table.exists_fits valid
  rw [tableFor, hfits, Checked.ok_bind]
  cases fitting with
  | true => exact ⟨table, rfl, (Table.fits_eq_true_iff valid).mp hfits⟩
  | false => exact Table.exists_ofParams valid

theorem sized_of_tableFor {base : Table} (valid : params.Valid)
    (hbase : tableFor params table = .ok base) : base.Sized params := by
  obtain ⟨base', hbase', hsized⟩ := exists_tableFor table valid
  cases hbase.symm.trans hbase'
  exact hsized

/-- The windows of the history, in the order in which they are filed. -/
def historyWindows (params : Params) (data : Buffer) (history : Nat) : List Window :=
  Table.fillWindows params (data.extract 0 history)

/-- Without a history no window is filed. -/
theorem historyWindows_zero (params : Params) (data : Buffer) :
    historyWindows params data 0 = [] := by
  have hempty : data.extract 0 0 = #[] := by simp
  rw [historyWindows, hempty, Table.fillWindows, Detector.chunkEnds_empty]
  rfl

theorem fileHistory_eq (valid : params.Valid) (hhistory : history ≤ data.size) :
    fileHistory params data history table =
      .ok (table.recordAll (historyWindows params data history)) := by
  unfold fileHistory
  by_cases hzero : history = 0
  · rw [if_pos hzero, hzero, historyWindows_zero]
    rfl
  · have hslice : data.slice 0 history = .ok (data.extract 0 history) :=
      Buffer.slice_eq_ok_iff.mpr ⟨⟨Nat.zero_le _, hhistory⟩, rfl⟩
    rw [if_neg hzero, hslice, Checked.ok_bind, Table.fill_eq valid]
    rfl

theorem taken_of_mem_historyWindows {window : Window}
    (h : window ∈ historyWindows params data history) :
    window.Taken data params.minChunk :=
  (Table.taken_of_mem_fillWindows h).of_front

/-! ## Starting -/

/-- The scan that starts with a table in which the history is filed. -/
def initial (params : Params) (hhistory : history ≤ data.size) (table : Table) : Scan data where
  params
  detector := params.detector
  table
  roll := .start ⟨history, hhistory⟩
  anchor := history
  pending := none
  stats := .zero
  done := false

theorem sound_initial (valid : params.Valid) (hhistory : history ≤ data.size)
    (hsize : data.size < sizeBound) (hsized : table.Sized params) :
    (initial params hhistory table).Sound history :=
  ⟨valid, hsize, rfl, hsized, Nat.le_refl _, Nat.le_refl _, fun _ => Nat.le_refl _, nofun, nofun⟩

/-- A request is refused exactly for one of the reasons, and the table is handed back as it was. -/
theorem start_eq_refused_iff {error : Error} {kept : Table} :
    start params data history table = .ok (.refused error kept) ↔
      kept = table ∧ Refuses params data history error := by
  rw [← check_eq_error_iff]
  unfold start
  cases hcheck : check params data history with
  | error reason =>
    constructor
    · intro h
      cases h
      exact ⟨rfl, rfl⟩
    · rintro ⟨rfl, hreason⟩
      cases hreason
      rfl
  | ok _ =>
    constructor
    · -- whatever the four parts of starting give, their sum is no refusal
      intro h
      obtain ⟨_, _, h⟩ := Checked.bind_eq_ok_iff.mp h
      obtain ⟨_, _, h⟩ := Checked.bind_eq_ok_iff.mp h
      obtain ⟨_, _, h⟩ := Checked.bind_eq_ok_iff.mp h
      obtain ⟨_, _, h⟩ := Checked.bind_eq_ok_iff.mp h
      cases h
    · rintro ⟨_, hreason⟩
      cases hreason

/-- A request that is not refused starts a sound scan with the history filed. -/
theorem start_eq_running (table : Table) (valid : params.Valid) (hhistory : history ≤ data.size)
    (hsize : data.size < sizeBound) :
    ∃ base, tableFor params table = .ok base ∧
      start params data history table = .ok (.running (initial params hhistory
        (base.recordAll (historyWindows params data history)))) ∧
          (initial params hhistory
            (base.recordAll (historyWindows params data history))).Sound history := by
  obtain ⟨base, hbase, hsized⟩ := exists_tableFor table valid
  have hcheck : check params data history = .ok () :=
    check_eq_ok_iff.mpr ⟨valid, hhistory, hsize⟩
  have hcursor : Cursor.start data history = .ok ⟨history, hhistory⟩ := dif_pos hhistory
  refine ⟨base, hbase, ?_, sound_initial valid hhistory hsize (hsized.recordAll _)⟩
  simp only [start, hcheck, hbase, Checked.ok_bind, fileHistory_eq valid hhistory,
    valid.detector_eq, hcursor]
  rfl

/-- A scan that has just started searches, from the end of the history on. -/
theorem exists_searching (table : Table) (valid : params.Valid) (hhistory : history ≤ data.size)
    (hsize : data.size < sizeBound) :
    ∃ scan, start params data history table = .ok (.running scan) ∧
      scan.roll = .start ⟨history, hhistory⟩ ∧ scan.detector = params.detector ∧
        scan.Searching := by
  obtain ⟨_, _, hstart, _⟩ := start_eq_running table valid hhistory hsize
  exact ⟨_, hstart, rfl, rfl, rfl, rfl⟩

/-- A scan that started was not refused, and it is the one that starts with the history filed. -/
theorem of_start_eq_running {scan : Scan data}
    (hstart : start params data history table = .ok (.running scan)) :
    ∃ (hhistory : history ≤ data.size) (base : Table), params.Valid ∧
      tableFor params table = .ok base ∧ base.Sized params ∧
        scan = initial params hhistory (base.recordAll (historyWindows params data history)) ∧
          scan.Sound history := by
  have hcheck : check params data history = .ok () := by
    cases hcheck : check params data history with
    | ok _ => rfl
    | error error =>
      rw [start_eq_refused_iff.mpr ⟨rfl, check_eq_error_iff.mp hcheck⟩] at hstart
      cases hstart
  obtain ⟨valid, hhistory, hsize⟩ := check_eq_ok_iff.mp hcheck
  obtain ⟨base, hbase, hrunning, hsound⟩ := start_eq_running table valid hhistory hsize
  cases hstart.symm.trans hrunning
  exact ⟨hhistory, base, valid, hbase, sized_of_tableFor valid hbase, rfl, hsound⟩

/-! ## The log of a scan -/

variable {hhistory : history ≤ data.size} {base : Table} {scan after : Scan data}
  {windows : List Window} {answers : List (Option Sequence)}

/-- The table of a scan is that of its start with the windows of the history and then those of the
run filed. -/
theorem Sound.table_of_run
    (sound : (initial params hhistory
      (base.recordAll (historyWindows params data history))).Sound history)
    (hrun : (initial params hhistory
      (base.recordAll (historyWindows params data history))).Run windows answers after) :
    after.table = base.recordAll (historyWindows params data history ++ windows) := by
  rw [(sound.frame_of_run hrun).2, Table.recordAll_append]
  rfl

/-- What is filed in a scan, for the history and by the probes, are windows of the buffer. -/
theorem Sound.taken_of_mem_log (sound : scan.Sound history) (hrun : scan.Run windows answers after)
    {window : Window} (h : window ∈ historyWindows scan.params data history ++ windows) :
    window.Taken data scan.params.minChunk := by
  rcases List.mem_append.mp h with hold | hnew
  · exact taken_of_mem_historyWindows hold
  · exact sound.taken_of_run hrun window hnew

end Scan

end LongMatch
