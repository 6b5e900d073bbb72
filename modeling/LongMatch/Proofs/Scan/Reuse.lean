import Mathlib.Control.Monad.Basic
import LongMatch.Proofs.Index.Alike
import LongMatch.Proofs.Scan.Start
/-!
# LongMatch.Proofs.Scan.Reuse: a table used before does not change a scan

A probe skips every entry that lies at its window or beyond, before it counts anything. So scans
that differ in their tables only, and whose tables are alike below the size of the buffer, go
through the same moves: a survey of the two buckets is the same (`survey_congr`), filing keeps the
tables alike, and nothing else of a move reads the table. `Sound.exists_next_twin` says this of one
call and `Sound.exists_calls_twin` of any number. The result, `spent_table_scans_alike`, compares a
table that was used before with a fresh one.
-/

namespace LongMatch

/-! ## A survey -/

namespace Probe

variable {probe : Probe} {data : Buffer} {limit : Nat}

/-- An entry at the window or beyond changes nothing. -/
theorem visit_of_le {entry : Entry} (h : probe.window.start ≤ entry.offset.toNat)
    (survey : Survey) : probe.visit data survey entry = .ok survey := by
  apply if_neg
  intro heligible
  obtain ⟨_, hlt, _⟩ := eligible_iff.mp heligible
  omega

/-- What a survey comes to depends on the entries before the window only. -/
theorem foldlM_visit_below (hlimit : probe.window.start ≤ limit) (entries : List Entry)
    (survey : Survey) :
    (entries.filterMap (Entry.below limit)).foldlM (probe.visit data) survey =
      entries.foldlM (probe.visit data) survey := by
  induction entries generalizing survey with
  | nil => rfl
  | cons entry entries ih =>
    by_cases hlt : entry.offset.toNat < limit
    · have hbelow : entry.below limit = some entry := if_pos hlt
      rw [List.filterMap_cons_some hbelow, List.foldlM_cons, List.foldlM_cons]
      congr 1
      funext next
      exact ih next
    · have hle : limit ≤ entry.offset.toNat := Nat.le_of_not_lt hlt
      rw [List.filterMap_cons_none (Entry.below_of_le hle), List.foldlM_cons,
        visit_of_le (Nat.le_trans hlimit hle), Checked.ok_bind, ih]

theorem survey_congr {entries others : List Entry} (hlimit : probe.window.start ≤ limit)
    (h : others.filterMap (Entry.below limit) = entries.filterMap (Entry.below limit)) :
    probe.survey data others = probe.survey data entries := by
  rw [survey, survey, ← foldlM_visit_below hlimit, h, foldlM_visit_below hlimit]

end Probe

namespace Scan

variable {data : Buffer} {history : Nat} {scan after : Scan data} {table : Table}

/-! ## Two scans side by side -/

/-- The scan with another table. -/
def withTable (scan : Scan data) (table : Table) : Scan data := { scan with table }

/-- The table looks like the one of the scan, as far as the buffer goes. -/
def Twin (scan : Scan data) (table : Table) : Prop := scan.table.Alike data.size table

theorem Sound.withTable (h : scan.Sound history) (htwin : scan.Twin table) :
    (scan.withTable table).Sound history :=
  ⟨h.valid, h.size_lt, h.detector_eq, htwin.sized h.sized, h.history_le, h.anchor_le, h.chunk_le,
    h.pending_eq, h.anchor_eq⟩

/-- A probe comes to the same in both scans, and files the same window. -/
theorem Sound.probeAt_withTable (h : scan.Sound history) (htwin : scan.Twin table)
    (hs : scan.Searching) {roll : Roll data} {survey : Survey} {filed : Table}
    (hadvance : scan.roll.advance scan.detector.splits = (roll, true))
    (hprobe : scan.probeAt roll.position = .ok (survey, filed)) :
    (scan.withTable table).probeAt roll.position =
      .ok (survey, table.record (scan.windowAt roll.position)) := by
  have hroom := h.anchor_add_le hs hadvance
  -- the window begins in the buffer, so no entry beyond the buffer counts
  have hstart : (scan.probeOf roll.position).window.start ≤ data.size :=
    (h.inRange_probeOf hroom roll.position_le).start_le
  have hsurvey : (scan.withTable table).surveyAt roll.position = scan.surveyAt roll.position :=
    Probe.survey_congr hstart (htwin.entries_below (Nat.le_of_lt h.size_lt) _)
  rw [h.probeAt_eq hroom roll.position_le] at hprobe
  obtain ⟨survey', hsurvey', hpair⟩ := Checked.bind_eq_ok_iff.mp hprobe
  cases hpair
  exact (h.withTable htwin).probeAt_of_surveyAt hroom roll.position_le (hsurvey.trans hsurvey')

/-- Handing out a match does not read the table. -/
theorem emit_withTable (scan : Scan data) (m : Match) (table : Table) :
    (scan.withTable table).emit m = do
      let (item, after) ← scan.emit m
      return (item, after.withTable table) := by
  unfold emit
  cases m.destinationEnd with
  | error fault => rfl
  | ok stop =>
    by_cases hlength : (⟨scan.anchor, m.destination⟩ : Span).length = 0
    · cases hseek : scan.roll.cursor.seek stop <;>
        simp only [withTable, Checked.ok_bind, hseek, if_pos hlength] <;> rfl
    · cases hseek : scan.roll.cursor.seek stop <;>
        simp only [withTable, Checked.ok_bind, hseek, if_neg hlength] <;> rfl

theorem finish_withTable (scan : Scan data) (table : Table) :
    (scan.withTable table).finish = (scan.finish.1, scan.finish.2.withTable table) := by
  rcases finish_cases scan with ⟨hlt, hfinish⟩ | ⟨hle, hfinish⟩
  · rw [hfinish]
    exact if_pos hlt
  · rw [hfinish]
    exact if_neg (Nat.not_lt.mpr hle)

/-- Each move of a scan is one of its twin. -/
theorem Sound.move_withTable (h : scan.Sound history) (htwin : scan.Twin table)
    {windows : List Window} {answers : List (Option Sequence)}
    (hmove : scan.Move windows answers after) :
    (scan.withTable table).Move windows answers (after.withTable (table.recordAll windows)) := by
  cases hmove with
  | byte hs hnext hgo => exact .byte ⟨hs.1, hs.2⟩ hnext hgo
  | pass hs hadvance hprobe hbest =>
    exact .pass ⟨hs.1, hs.2⟩ hadvance (h.probeAt_withTable htwin hs hadvance hprobe) hbest
  | @found roll survey filed m item _ hs hadvance hprobe hbest hemit =>
    have hprobe' := h.probeAt_withTable htwin hs hadvance hprobe
    refine .found ⟨hs.1, hs.2⟩ hadvance hprobe' hbest ?_
    refine (emit_withTable (scan.probed roll survey filed) m _).trans ?_
    rw [hemit]
    rfl
  | @ended roll hs hadvance =>
    have hfinish := finish_withTable { scan with roll } table
    have hended : (scan.withTable table).Move []
        [(({ scan with roll } : Scan data).withTable table).finish.1]
        (({ scan with roll } : Scan data).withTable table).finish.2 :=
      .ended ⟨hs.1, hs.2⟩ hadvance
    rw [hfinish] at hended
    exact hended
  | hand hpending => exact .hand hpending
  | rest hpending hdone => exact .rest hpending hdone

/-- After a move the tables are alike again. -/
theorem Sound.twin_of_move (h : scan.Sound history) (htwin : scan.Twin table)
    {windows : List Window} {answers : List (Option Sequence)}
    (hmove : scan.Move windows answers after) : after.Twin (table.recordAll windows) := by
  rw [Twin, (h.frame_of_move hmove).2]
  exact htwin.recordAll (h.sized.bucketSize_le h.valid) windows

/-! ## Calls -/

/-- A call gives the same answer, and the scans after it differ in their tables only. -/
theorem Sound.exists_next_twin {scan : Scan data} {table : Table} (h : scan.Sound history)
    (htwin : scan.Twin table) :
    ∃ answer after table', scan.next = .ok (answer, after) ∧
      (scan.withTable table).next = .ok (answer, after.withTable table') ∧
        after.Twin table' ∧ after.Sound history := by
  rcases h.exists_move with ⟨windows, answer, after, hmove⟩ | ⟨windows, mid, hmove, hless⟩
  · exact ⟨answer, after, table.recordAll windows, hmove.next_eq_ok,
      (h.move_withTable htwin hmove).next_eq_ok, h.twin_of_move htwin hmove, h.move hmove⟩
  · -- the same call goes on where fewer bytes are left
    obtain ⟨answer, after, table', hnext, hnext', hafter⟩ :=
      (h.move hmove).exists_next_twin (h.twin_of_move htwin hmove)
    exact ⟨answer, after, table', hmove.next_eq_next.trans hnext,
      (h.move_withTable htwin hmove).next_eq_next.trans hnext', hafter⟩
termination_by scan.roll.remaining
decreasing_by exact hless

/-- Any number of calls give the same answers, and the scans after them differ in their tables
only. -/
theorem Sound.exists_calls_twin (h : scan.Sound history) (htwin : scan.Twin table) (count : Nat) :
    ∃ answers after table', scan.calls count = .ok (answers, after) ∧
      (scan.withTable table).calls count = .ok (answers, after.withTable table') ∧
        after.Twin table' ∧ after.Sound history := by
  induction count with
  | zero => exact ⟨[], scan, table, rfl, rfl, htwin, h⟩
  | succ count ih =>
    obtain ⟨answers, mid, middle, hcalls, hcalls', hmid, hsound⟩ := ih
    obtain ⟨answer, after, table', hnext, hnext', hafter⟩ := hsound.exists_next_twin hmid
    exact ⟨answers ++ [answer], after, table', calls_succ hcalls hnext, calls_succ hcalls' hnext',
      hafter⟩

/-- What is collected is the same. -/
theorem Sound.exists_runInto_twin (h : scan.Sound history) (htwin : scan.Twin table)
    (found : Array Sequence) (count : Nat) :
    ∃ items after table', scan.runInto found count = .ok (items, after) ∧
      (scan.withTable table).runInto found count = .ok (items, after.withTable table') := by
  induction count generalizing scan table found with
  | zero => exact ⟨found, scan, table, rfl, rfl⟩
  | succ count ih =>
    obtain ⟨answer, mid, middle, hnext, hnext', hmid, hsound⟩ := h.exists_next_twin htwin
    cases answer with
    | none =>
      refine ⟨found, mid, middle, ?_, ?_⟩
      · simp only [runInto, hnext]
      · simp only [runInto, hnext']
    | some item =>
      obtain ⟨items, after, table', hrest, hrest'⟩ := ih hsound hmid (found.push item)
      refine ⟨items, after, table', ?_, ?_⟩
      · simp only [runInto, hnext, hrest]
      · simp only [runInto, hnext', hrest']

/-! ## Tables used before -/

end Scan

/-- Nothing that the table holds can be taken for a part of a buffer of this size: the table is of
another size than asked for, its entries all lie beyond the buffer, or it was reset. -/
inductive Table.Spent (params : Params) (size : Nat) : Table → Prop
  | misfit {table : Table} : table.fits params = .ok false → Spent params size table
  | beyond {table : Table} :
      (∀ key entry, entry ∈ table.entries key → size ≤ entry.offset.toNat) →
      Spent params size table
  | reset (past : Table) : Spent params size past.reset

namespace Scan

variable {data : Buffer} {history : Nat} {params : Params} {table base fresh : Table}

theorem entries_fresh (hfresh : Table.ofParams params = .ok fresh) (key : Key) :
    fresh.entries key = [] := by
  rw [Table.eq_empty_of_ofParams hfresh]
  exact Table.entries_empty ..

/-- A scan uses a table as it is, or a fresh one. -/
theorem tableFor_cases (valid : params.Valid) (hbase : tableFor params table = .ok base) :
    (table.fits params = .ok true ∧ base = table) ∨ Table.ofParams params = .ok base := by
  obtain ⟨fitting, hfits⟩ := table.exists_fits valid
  rw [tableFor, hfits, Checked.ok_bind] at hbase
  cases fitting with
  | true =>
    cases hbase
    exact Or.inl ⟨hfits, rfl⟩
  | false => exact Or.inr hbase

/-- In place of a spent table a scan uses one that is like a fresh one. -/
theorem alike_of_spent {size : Nat} (hspent : table.Spent params size) (valid : params.Valid)
    (hsize : size < sizeBound) (hbase : tableFor params table = .ok base)
    (hfresh : Table.ofParams params = .ok fresh) : fresh.Alike size base := by
  obtain ⟨_, hfresh', hfreshSized⟩ := Table.exists_ofParams valid
  have hbaseSized := sized_of_tableFor valid hbase
  cases hfresh.symm.trans hfresh'
  have hnone : ∀ {other : Table}, (∀ key, other.entries key = []) →
      ∀ key entry, entry ∈ other.entries key → size ≤ entry.offset.toNat := by
    intro other hempty key entry hmem
    rw [hempty key] at hmem
    cases hmem
  apply Table.alike_of_entries hfreshSized hbaseSized (Nat.le_of_lt hsize)
    (hnone (entries_fresh hfresh))
  rcases tableFor_cases valid hbase with ⟨hfits, rfl⟩ | hnew
  · cases hspent with
    | misfit hmisfit => cases hfits.symm.trans hmisfit
    | beyond hbeyond => exact hbeyond
    | reset past => exact hnone past.entries_reset
  · exact hnone (entries_fresh hnew)

/-- A scan that starts with a spent table is the twin of one that starts with a fresh one. -/
theorem exists_start_twin (valid : params.Valid) (hhistory : history ≤ data.size)
    (hsize : data.size < sizeBound) (hspent : table.Spent params data.size) :
    ∃ fresh scan base, Table.ofParams params = .ok fresh ∧
      start params data history fresh = .ok (.running scan) ∧
      start params data history table = .ok (.running (scan.withTable base)) ∧
        scan.Twin base ∧ scan.Sound history := by
  obtain ⟨fresh, hfresh, hsized⟩ := Table.exists_ofParams valid
  obtain ⟨fresh', hfresh', hstart, hsound⟩ := start_eq_running fresh valid hhistory hsize
  obtain ⟨base, hbase, hstart', _⟩ := start_eq_running table valid hhistory hsize
  -- a fresh table is used as it is
  obtain rfl : fresh' = fresh := by
    rcases tableFor_cases valid hfresh' with ⟨_, heq⟩ | hnew
    · exact heq
    · exact Except.ok.inj (hnew.symm.trans hfresh)
  refine ⟨fresh', _, _, hfresh, hstart, hstart', ?_, hsound⟩
  exact (alike_of_spent hspent valid hsize hbase hfresh).recordAll (hsized.bucketSize_le valid) _

/-- **A table used before does not change a scan.** If nothing in it can be taken for a part of the
buffer, every call gives what it gives with a fresh table, and the position and the counts are the
same after it; without a history, what is collected is the description of the buffer. -/
theorem spent_table_scans_alike (params : Params) (data : Buffer) (history : Nat) (table : Table)
    (hvalid : params.validate = .ok ()) (hsize : data.size < sizeBound)
    (hhistory : history ≤ data.size) (hspent : table.Spent params data.size) :
    ∃ fresh scan twin, Table.ofParams params = .ok fresh ∧
      start params data history table = .ok (.running scan) ∧
      start params data history fresh = .ok (.running twin) ∧
      (∀ count, ∃ answers after twinAfter,
        scan.calls count = .ok (answers, after) ∧ twin.calls count = .ok (answers, twinAfter) ∧
          after.position = twinAfter.position ∧ after.stats = twinAfter.stats) ∧
      (history = 0 → ∃ items after, scan.collect = .ok (items, after) ∧
        describe params data = .ok (.ok items)) := by
  have valid := Params.validate_eq_ok_iff.mp hvalid
  obtain ⟨fresh, twin, base, hfresh, hstart, hstart', htwin, hsound⟩ :=
    exists_start_twin valid hhistory hsize hspent
  refine ⟨fresh, twin.withTable base, twin, hfresh, hstart', hstart, ?_, ?_⟩
  · intro count
    obtain ⟨answers, twinAfter, table', hcalls, hcalls', _⟩ := hsound.exists_calls_twin htwin count
    exact ⟨answers, twinAfter.withTable table', twinAfter, hcalls', hcalls, rfl, rfl⟩
  · rintro rfl
    obtain ⟨items, after, table', hcollect, hcollect'⟩ :=
      hsound.exists_runInto_twin htwin #[] (data.size + 1)
    refine ⟨items, after.withTable table', hcollect', ?_⟩
    have hcollected : twin.collect = .ok (items, after) := hcollect
    simp only [describe, hvalid, hfresh, Checked.ok_bind, hstart, hcollected]
    rfl

/-! ### A table that was written once

One of two slots holds an entry beyond the buffer, filed under the bytes that the buffer consists
of, so that it is met at every split and the next write goes to the other slot. -/

def writtenParams : Params := ⟨10, 6, 4, 0, 1⟩

def writtenData : Buffer := #[7, 7, 7, 7, 7, 7, 7, 7, 7, 7, 1, 2]

def strayWindow : Window := ⟨100, .ofWindow #[7, 7, 7, 7]⟩

def writtenTable : Table := (Table.empty 5 1).record strayWindow

def writtenItems : Array Sequence := #[.literals ⟨0, 4⟩, .copy ⟨0, 4, 6⟩, .literals ⟨10, 12⟩]

theorem spent_writtenTable : writtenTable.Spent writtenParams writtenData.size := by
  apply Table.Spent.beyond
  intro key entry hmem
  obtain ⟨hslot, _⟩ := List.mem_filter.mp hmem
  have hempty := Table.newest_empty 5 1 key
  have hcases : entry = strayWindow.entry ∨ entry = .vacant := by
    by_cases hindex : (Table.empty 5 1).indexOf strayWindow.key = (Table.empty 5 1).indexOf key
    · rw [writtenTable, Table.newest_record_of_eq (by decide) hindex, hempty] at hslot
      rcases List.mem_cons.mp hslot with heq | hold
      · exact Or.inl heq
      · exact Or.inr (List.eq_of_mem_replicate (List.dropLast_subset _ hold))
    · rw [writtenTable, Table.newest_record_of_ne hindex, hempty] at hslot
      exact Or.inr (List.eq_of_mem_replicate hslot)
  rcases hcases with rfl | rfl
  · decide
  · decide

theorem written_table_collects_description :
    writtenParams.validate = .ok () ∧ writtenData.size < sizeBound ∧ 0 ≤ writtenData.size ∧
      writtenTable.Spent writtenParams writtenData.size ∧
        ∃ scan after, start writtenParams writtenData 0 writtenTable = .ok (.running scan) ∧
          scan.collect = .ok (writtenItems, after) := by
  have hvalid : writtenParams.validate = .ok () := by decide
  have hsize : writtenData.size < sizeBound := by decide
  refine ⟨hvalid, hsize, Nat.zero_le _, spent_writtenTable, ?_⟩
  obtain ⟨_, scan, _, _, hstart, _, _, hdescribe⟩ := spent_table_scans_alike writtenParams
    writtenData 0 writtenTable hvalid hsize (Nat.zero_le _) spent_writtenTable
  obtain ⟨items, after, hcollect, hitems⟩ := hdescribe rfl
  have hdescription : describe writtenParams writtenData = .ok (.ok writtenItems) := by
    decide +kernel
  cases hitems.symm.trans hdescription
  exact ⟨scan, after, hstart, hcollect⟩

end Scan

end LongMatch
