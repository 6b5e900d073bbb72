import LongMatch.Proofs.Index.Recent
import LongMatch.Proofs.Scan.Work
/-!
# LongMatch.Proofs.Scan.Safety: nothing goes wrong but up front

A request for a scan is refused for one of three reasons, and then the table is handed back as it
was. Otherwise a scan starts, and every call answers: no checked operation, and so no `Fault`, is
met. What a scan does not check is in range as well, at every moment: its counts, the place of an
entry in the table, the way to the end of a match, and the offset that is stored for a window. The
result is `start_refuses_or_runs_safely`. It asks nothing of the settings, the buffer, the history
or the table.
-/

namespace LongMatch.Scan

variable {data : Buffer} {history : Nat} {scan after : Scan data} {windows : List Window}
  {answers : List (Option Sequence)} {params : Params}

/-! ## What is stored -/

/-- A window that a run files has an offset of its own. -/
theorem Sound.storable_of_run (h : scan.Sound history) (hrun : scan.Run windows answers after) :
    ∀ window, window ∈ windows → window.Storable := by
  intro window hmem
  exact (h.taken_of_run hrun window hmem).storable h.size_lt

theorem storable_of_mem_historyWindows (hsize : data.size < sizeBound) {window : Window}
    (h : window ∈ historyWindows params data history) : window.Storable :=
  (taken_of_mem_historyWindows h).storable hsize

/-! ## What is in range -/

/-- The counts of a scan are within the range of a machine word. -/
structure Countable (scan : Scan data) : Prop where
  length_lt : scan.roll.length < Checked.sizeBound
  boundaries_lt : scan.stats.boundaries < Checked.sizeBound
  candidates_lt : scan.stats.candidates < Checked.sizeBound
  rejected_lt : scan.stats.rejected < Checked.sizeBound
  matchCount_lt : scan.stats.matchCount < Checked.sizeBound
  matchedBytes_lt : scan.stats.matchedBytes < Checked.sizeBound

theorem Accounts.countable (h : scan.Accounts history) (sound : scan.Sound history) :
    scan.Countable := by
  have hlinear := h.linear sound
  have hword : Checked.sizeBound = 18446744073709551616 := rfl
  have hbound : sizeBound = 4294967295 := rfl
  have hsize := sound.size_lt
  have hanchor := Nat.le_trans sound.anchor_le scan.position_le
  -- the bytes hashed are below 2 ^ 33, and every count is below 2 ^ 8 times that
  have hhashed : scan.roll.hashed ≤ 2 * data.size := by
    have hle := Nat.le_trans hlinear.hashed_le hlinear.total_le
    omega
  have hboundaries : scan.stats.boundaries ≤ scan.roll.hashed := by
    have hpaid : scan.stats.boundaries ≤ scan.stats.boundaries * scan.params.minMatchLength :=
      Nat.le_mul_of_pos_right _ sound.valid.minMatchLength_pos
    have hle := h.boundaries_le
    omega
  have hcandidates : scan.stats.candidates ≤ scan.stats.boundaries * 256 :=
    Nat.le_trans h.candidates_le
      (Nat.mul_le_mul_left _ (sound.sized.bucketSize_le sound.valid))
  obtain ⟨_, hlength, hmatched, _, _, hrejected⟩ := h
  exact ⟨by omega, by omega, by omega, by omega, by omega, by omega⟩

/-- What a scan does not check is in range. -/
structure Safe (params : Params) (scan : Scan data) : Prop where
  countable : scan.Countable
  fits : scan.table.fits params = .ok true
  /-- The places of a bucket's entries are places of the table. -/
  place_lt : ∀ key slot, slot < 2 ^ scan.table.bucketSizeLog →
    scan.table.indexOf key * 2 ^ scan.table.bucketSizeLog + slot < scan.table.capacity
  /-- A scan can go on from the end of every match that it finds. -/
  seeks : scan.Searching → ∀ m mid, scan.step = .ok (.found m, mid) →
    ∃ stop cursor, m.destinationEnd = .ok stop ∧ mid.roll.cursor.seek stop = .ok cursor

theorem Accounts.safe (h : scan.Accounts history) (sound : scan.Sound history) :
    scan.Safe scan.params := by
  refine ⟨h.countable sound, (Table.fits_eq_true_iff sound.valid).mpr sound.sized,
    fun key slot => scan.table.place_lt_capacity key, ?_⟩
  intro hs m mid hstep
  rcases step_cases hstep with ⟨hended, _⟩ |
    ⟨roll, survey, table, hadvance, hprobe, _, ⟨hpassed, _⟩ | ⟨_, hfound, hbest⟩⟩
  · cases hended
  · cases hpassed
  cases hfound
  -- a match that is found ends in the buffer
  obtain ⟨_, _, hstop, _⟩ := sound.found_spec hs hadvance hprobe hbest
  have hend := Match.destinationEnd_of_le hstop (Nat.lt_trans sound.size_lt sizeBound_lt)
  exact ⟨m.destination + m.length, ⟨m.destination + m.length, hstop⟩, hend,
    Cursor.seek_eq_ok_iff.mpr rfl⟩

/-! ## From the start on -/

/-- A scan that started with a table goes on without a fault for as long as it is called. -/
structure RunsSafely (params : Params) (history : Nat) (base : Table) (scan : Scan data) :
    Prop where
  table_eq : scan.table =
    base.insertAll ((historyWindows params data history).map Window.insertion)
  storable : ∀ window, window ∈ historyWindows params data history → window.Storable
  answers : ∀ count, ∃ windows answers after, scan.calls count = .ok (answers, after) ∧
    scan.Run windows answers after
  stored : ∀ windows answers after, scan.Run windows answers after →
    after.table = scan.table.insertAll (windows.map Window.insertion) ∧
      ∀ window, window ∈ windows → window.Storable
  safe : ∀ moment, scan.Moment moment → moment.Safe params

/-- A request that is not refused starts a scan that runs safely. -/
theorem exists_runsSafely (table : Table) (valid : params.Valid) (hhistory : history ≤ data.size)
    (hsize : data.size < sizeBound) :
    ∃ base scan, tableFor params table = .ok base ∧
      start params data history table = .ok (.running scan) ∧
        scan.RunsSafely params history base := by
  obtain ⟨base, hbase, hstart, sound⟩ := start_eq_running table valid hhistory hsize
  have haccounts := accounts_initial params hhistory
    (base.recordAll (historyWindows params data history))
  refine ⟨base, _, hbase, hstart, base.recordAll_eq_insertAll _, ?_, ?_, ?_, ?_⟩
  · intro window hmem
    exact storable_of_mem_historyWindows hsize hmem
  · exact sound.traced.calls
  · intro windows answers after hrun
    refine ⟨?_, sound.storable_of_run hrun⟩
    rw [(sound.frame_of_run hrun).2, Table.recordAll_eq_insertAll]
  · intro moment hmoment
    obtain ⟨hmoment, hsound, hparams⟩ := haccounts.moment sound hmoment
    have hsafe := hmoment.safe hsound
    rwa [hparams] at hsafe

/-- **Errors come up front, and faults never.** Whatever is asked for, a scan is refused for the
first reason there is, with the table as it was, or it starts and never meets a fault. -/
theorem start_refuses_or_runs_safely (params : Params) (data : Buffer) (history : Nat)
    (table : Table) :
    (∀ error kept, start params data history table = .ok (.refused error kept) ↔
        kept = table ∧ Refuses params data history error) ∧
      ((∃ error, start params data history table = .ok (.refused error table)) ∨
        ∃ base scan, tableFor params table = .ok base ∧
          start params data history table = .ok (.running scan) ∧
            scan.RunsSafely params history base) := by
  constructor
  · intro error kept
    exact start_eq_refused_iff
  -- the check alone decides which of the two it is
  cases hcheck : check params data history with
  | error error =>
    exact Or.inl ⟨error, start_eq_refused_iff.mpr ⟨rfl, check_eq_error_iff.mp hcheck⟩⟩
  | ok _ =>
    obtain ⟨valid, hhistory, hsize⟩ := check_eq_ok_iff.mp hcheck
    exact Or.inr (exists_runsSafely table valid hhistory hsize)

end LongMatch.Scan
