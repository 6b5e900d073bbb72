import LongMatch.Proofs.Chunk.Segmentation
import LongMatch.Proofs.Scan.Forward
/-!
# LongMatch.Proofs.Scan.Nearest: in a bucket, newer is nearer

A scan can go back: a stranger with the checksum of the probed window may share bytes before it
only, and then the scan goes on from the start of that window and may file it again. It never goes
back over a window that it filed, though. The windows filed so far, those of the history first,
start one after the other and none after the chunk in hand: `Ordered`, which every move keeps. So
the entries of a bucket, newest first, lie from right to left, and each is true of the buffer:
`Table.Indexes`. The result is `newer_entries_are_nearer`.
-/

namespace LongMatch

/-- The entry stands for the window of least length that starts at its offset, and the key of that
window belongs to the bucket with this number. -/
structure Entry.Locates (params : Params) (data : Buffer) (bucketLog number : Nat) (entry : Entry) :
    Prop where
  room : entry.offset.toNat + params.minMatchLength ≤ data.size
  bucket_eq : (keyAt params data entry.offset.toNat).bucketIndex bucketLog = number
  checksum_eq : entry.checksum = (keyAt params data entry.offset.toNat).checksum

namespace Table

/-- In every bucket each entry is true of the buffer, and no entry lies after a newer one. -/
structure Indexes (params : Params) (data : Buffer) (table : Table) : Prop where
  locates : ∀ number entry, entry ∈ (table.buckets.get number).live →
    entry.Locates params data table.bucketLog number
  nearest : ∀ number, (table.buckets.get number).live.Pairwise fun newer older =>
    older.offset ≤ newer.offset

variable {table : Table} {params : Params} {data : Buffer} {windows : List Window} {key : Key}

/-! ## Buckets -/

/-- Every bucket is the one of some key, as long as there are as many keys as buckets. -/
theorem exists_key (hlog : table.bucketLog ≤ 64) (number : Fin (2 ^ table.bucketLog)) :
    ∃ key, table.indexOf key = number ∧ table.bucket key = table.buckets.get number := by
  have hpow : 2 ^ table.bucketLog ≤ 2 ^ (64 : Nat) := Nat.pow_le_pow_right (by decide) hlog
  have hnumber := number.isLt
  have hindex : table.indexOf ⟨number.val.toUInt64⟩ = number := by
    have hbits : number.val.toUInt64.toNat = number := by
      rw [Nat.toUInt64, UInt64.toNat_ofNat']
      exact Nat.mod_eq_of_lt (by omega)
    rw [indexOf, Key.bucketIndex, hbits, Nat.mod_eq_of_lt hnumber]
  exact ⟨_, hindex, congrArg table.buckets.get (Fin.ext hindex)⟩

/-- A bucket without entries yields some of those filed later, the last one first. -/
theorem entries_recordAll_sublist (hsmall : 2 ^ table.bucketSizeLog ≤ 256)
    (hempty : table.entries key = []) :
    ((table.recordAll windows).entries key).Sublist
      ((table.shelved key windows).map Window.entry).reverse := by
  have hold : (table.bucket key).newest.filter (!·.isVacant) = [] := hempty
  have hslots := (List.take_sublist (2 ^ table.bucketSizeLog)
    (((table.shelved key windows).map Window.entry).reverse ++
      (table.bucket key).newest)).filter (!·.isVacant)
  rw [← newest_recordAll hsmall, List.filter_append, hold, List.append_nil] at hslots
  exact hslots.trans List.filter_sublist

/-- A table without entries indexes the buffer once windows are filed that start one after the
other. -/
theorem indexes_recordAll (valid : params.Valid) (hsized : table.Sized params)
    (hsize : data.size < Scan.sizeBound) (hempty : ∀ key, table.entries key = [])
    (htaken : ∀ window, window ∈ windows → window.Taken data params.minChunk)
    (hordered : windows.Pairwise (·.start ≤ ·.start)) :
    (table.recordAll windows).Indexes params data := by
  have hsmall := hsized.bucketSize_le valid
  have hlog : (table.recordAll windows).bucketLog ≤ 64 := by
    have hsum := (hsized.recordAll windows).sum_eq
    have hle : params.hashLog ≤ 30 := valid.hashLog.2
    omega
  refine ⟨?_, ?_⟩
  · intro number entry hmem
    obtain ⟨key, hindex, hbucket⟩ := exists_key hlog number
    have hentry : entry ∈ (table.recordAll windows).entries key := by
      rwa [entries, hbucket]
    obtain ⟨window, hwindow, hsame, rfl⟩ :=
      (faithful_of_entries hempty).recordAll hsmall htaken key entry hentry
    have hoffset := (hwindow.storable hsize).offset_entry
    have hkey : window.key = keyAt params data window.start := hwindow.key_eq
    refine ⟨?_, ?_, ?_⟩
    · rw [hoffset]
      exact hwindow.stop_le
    · rw [hoffset, ← hkey, ← hindex]
      exact hsame
    · rw [hoffset, ← hkey]
      rfl
  · intro number
    obtain ⟨key, _, hbucket⟩ := exists_key hlog number
    have hlive : ((table.recordAll windows).buckets.get number).live =
        (table.recordAll windows).entries key := by
      rw [entries, hbucket]
    rw [hlive]
    apply List.Pairwise.sublist (entries_recordAll_sublist hsmall (hempty key))
    rw [List.pairwise_reverse, List.pairwise_map]
    -- the offsets are the starts, for windows of a buffer that is not too long
    have hshelved : (table.shelved key windows).Pairwise (·.start ≤ ·.start) :=
      hordered.sublist List.filter_sublist
    apply hshelved.imp_of_mem
    intro older newer holder hnewer hle
    have hexact := ((htaken older (List.mem_of_mem_filter holder)).storable hsize).offset_entry
    have hexact' := ((htaken newer (List.mem_of_mem_filter hnewer)).storable hsize).offset_entry
    rw [UInt32.le_iff_toNat_le, hexact, hexact']
    exact hle

/-- Filling files windows that start one after the other. -/
theorem pairwise_fillWindows (params : Params) (data : Buffer) :
    (fillWindows params data).Pairwise (·.start ≤ ·.start) := by
  have hends := ((params.detector.segments_chunkEnds data).pairwise_lt).filter
    (decide <| params.minChunk ≤ ·)
  rw [fillWindows, List.pairwise_map]
  apply hends.imp
  intro stop later hlt
  exact Nat.sub_le_sub_right (Nat.le_of_lt hlt) _

end Table

namespace Scan

variable {data : Buffer} {history : Nat} {scan after : Scan data} {roll : Roll data}
  {survey : Survey} {table : Table} {m : Match} {log windows : List Window}
  {answers : List (Option Sequence)}

/-! ## Every move keeps the order -/

/-- The windows filed so far start one after the other, and none after the chunk in hand. -/
structure Ordered (log : List Window) (scan : Scan data) : Prop where
  pairwise : log.Pairwise (·.start ≤ ·.start)
  behind : ∀ window, window ∈ log → window.start + scan.roll.length ≤ scan.position

theorem Ordered.ahead (h : scan.Ordered log) {count : Nat} (hahead : scan.roll.Ahead roll count) :
    ({ scan with roll } : Scan data).Ordered log := by
  obtain ⟨hposition, hlength, _⟩ := hahead
  refine ⟨h.pairwise, ?_⟩
  intro window hmem
  have hbehind := h.behind window hmem
  unfold position at hbehind
  show window.start + roll.length ≤ roll.position
  omega

/-- The window at the next split starts after all others, for the chunk before the split has room
for it. -/
theorem Ordered.le_windowAt (h : scan.Ordered log) (sound : scan.Sound history)
    (hadvance : scan.roll.advance scan.detector.splits = (roll, true)) {window : Window}
    (hmem : window ∈ log) : window.start ≤ (scan.windowAt roll.position).start := by
  obtain ⟨count, _, hahead, hsplit⟩ := Roll.advance_eq_true hadvance
  have hbehind : window.start + roll.length ≤ roll.position := (h.ahead hahead).behind window hmem
  have hmin := Detector.minChunk_le_of_splits hsplit
  rw [sound.detector_eq] at hmin
  have hroom : scan.params.minChunk ≤ roll.length := hmin
  show window.start ≤ roll.position - scan.params.minChunk
  omega

theorem Ordered.snoc (h : scan.Ordered log) (sound : scan.Sound history)
    (hadvance : scan.roll.advance scan.detector.splits = (roll, true)) :
    (log ++ [scan.windowAt roll.position]).Pairwise (·.start ≤ ·.start) := by
  refine List.pairwise_append.mpr ⟨h.pairwise, List.pairwise_singleton _ _, ?_⟩
  intro window hmem filed hfiled
  rw [List.mem_singleton.mp hfiled]
  exact h.le_windowAt sound hadvance hmem

/-- A scan whose chunk in hand is empty is ordered if it stands at the last window or after it. -/
theorem Ordered.of_le (h : scan.Ordered log) (sound : scan.Sound history)
    (hadvance : scan.roll.advance scan.detector.splits = (roll, true))
    (hlength : after.roll.length = 0)
    (hposition : (scan.windowAt roll.position).start ≤ after.position) :
    after.Ordered (log ++ [scan.windowAt roll.position]) := by
  refine ⟨h.snoc sound hadvance, ?_⟩
  intro window hmem
  rw [hlength]
  rcases List.mem_append.mp hmem with hold | hnew
  · exact Nat.le_trans (h.le_windowAt sound hadvance hold) hposition
  · rw [List.mem_singleton.mp hnew]
    exact hposition

theorem Ordered.finish (h : scan.Ordered log) : scan.finish.2.Ordered log := by
  rcases finish_cases scan with ⟨_, hfinish⟩ | ⟨_, hfinish⟩
  · rw [hfinish]
    exact ⟨h.pairwise, h.behind⟩
  · rw [hfinish]
    exact ⟨h.pairwise, h.behind⟩

theorem Ordered.move (h : scan.Ordered log) (sound : scan.Sound history)
    (hmove : scan.Move windows answers after) : after.Ordered (log ++ windows) := by
  cases hmove with
  | byte _ hnext _ =>
    rw [List.append_nil]
    exact h.ahead (Roll.ahead_of_next? hnext)
  | @pass roll _ _ _ hadvance _ _ =>
    exact h.of_le sound hadvance rfl (Nat.sub_le roll.position _)
  | found hs hadvance hprobe hbest hemit =>
    -- the destination reaches the start of the probed window, so the scan does not go behind it
    obtain ⟨hfinds, _, hstop, hcases⟩ := sound.found_cases hs hadvance hprobe hbest hemit
    have hreaches := hfinds.start_le_stop
    rcases hcases with ⟨_, _, rfl⟩ | ⟨_, _, rfl⟩
    · exact h.of_le sound hadvance rfl hreaches
    · exact h.of_le sound hadvance rfl hreaches
  | ended _ hadvance =>
    obtain ⟨⟨count, hahead⟩, _⟩ := Roll.advance_eq_false hadvance
    rw [List.append_nil]
    exact (h.ahead hahead).finish
  | hand _ =>
    rw [List.append_nil]
    exact ⟨h.pairwise, h.behind⟩
  | rest _ _ =>
    rw [List.append_nil]
    exact h

theorem Ordered.run (h : scan.Ordered log) (sound : scan.Sound history)
    (hrun : scan.Run windows answers after) : after.Ordered (log ++ windows) := by
  refine sound.run_invariant (fun hsound hmid hmove => ?_) ?_ hrun
  · rw [← List.append_assoc]
    exact hmid.move hsound hmove
  · rw [List.append_nil]
    exact h

/-! ## From the start on -/

/-- The windows of the history start in it. -/
theorem ordered_initial {params : Params} (hhistory : history ≤ data.size) (table : Table) :
    (initial params hhistory table).Ordered (historyWindows params data history) := by
  refine ⟨Table.pairwise_fillWindows params _, ?_⟩
  intro window hmem
  obtain ⟨stop, _, hstop, rfl⟩ := Table.taken_of_mem_fillWindows hmem
  rw [Array.size_extract] at hstop
  show stop - params.minChunk + 0 ≤ history
  omega

/-- **In the index of a scan, newer is nearer.** If the table given has no entries, or not the size
asked for, then after the history is filed and after any number of calls every entry of the table is
that of a window of the buffer, in the bucket of its key and with its checksum; and in each bucket
the offsets never increase from an entry to the next older one. -/
theorem newer_entries_are_nearer (params : Params) (data : Buffer) (history : Nat) (table : Table)
    (hvalid : params.validate = .ok ()) (hsize : data.size < sizeBound)
    (hhistory : history ≤ data.size) (hblank : table.Blank params) :
    ∃ scan, start params data history table = .ok (.running scan) ∧
      ∀ count, ∃ answers after, scan.calls count = .ok (answers, after) ∧
        after.table.Indexes params data := by
  have valid := Params.validate_eq_ok_iff.mp hvalid
  obtain ⟨base, hbase, hstart, sound⟩ := start_eq_running table valid hhistory hsize
  have hsized := sized_of_tableFor valid hbase
  refine ⟨_, hstart, ?_⟩
  intro count
  obtain ⟨windows, answers, after, hcalls, hrun, _⟩ := sound.exists_calls count
  have hordered := (ordered_initial hhistory _).run sound hrun
  refine ⟨answers, after, hcalls, ?_⟩
  rw [sound.table_of_run hrun]
  apply Table.indexes_recordAll valid hsized hsize (entries_of_blank hblank valid hbase)
  · intro window hmem
    exact sound.taken_of_mem_log hrun hmem
  · exact hordered.pairwise

/-! ### Back over a collision

The windows at 6 and 14 have nothing in common but the checksum and the four bytes before them. The
match found at the split after the second ends where that window starts, so it is probed and filed
again. -/

def collidingParams : Params := ⟨10, 6, 4, 0, 6⟩

def collidingData : Buffer := #[3, 4, 5, 6, 7, 8, 0, 222, 170, 118, 5, 6, 7, 8, 1, 210, 15, 80]

/-- What some calls answer, where they leave the scan and what the buckets yield then. -/
def indexAfter (params : Params) (data : Buffer) (history : Nat) (table : Table) (count : Nat) :
    Option (List (Option Sequence) × Nat × List (List UInt32)) :=
  match start params data history table with
  | .ok (.running scan) =>
    (scan.calls count).toOption.map fun (answers, after) =>
      (answers, after.position, after.table.occupied.map fun (_, entries) => entries.map (·.offset))
  | _ => none

theorem refiled_window_is_nearest :
    collidingParams.validate = .ok () ∧ collidingData.size < sizeBound ∧
      10 ≤ collidingData.size ∧ (Table.empty 0 6).Blank collidingParams ∧
      ∃ scan after, start collidingParams collidingData 10 (.empty 0 6) = .ok (.running scan) ∧
        scan.calls 2 = .ok ([some (.copy ⟨2, 10, 4⟩), some (.literals ⟨14, 18⟩)], after) ∧
        after.table.occupied.map (fun (_, entries) => entries.map (·.offset)) =
          [[14, 14, 10, 6, 4, 0]] ∧
        after.table.Indexes collidingParams collidingData := by
  have hvalid : collidingParams.validate = .ok () := by decide
  have hsize : collidingData.size < sizeBound := by decide
  have hhistory : 10 ≤ collidingData.size := by decide
  have hblank : (Table.empty 0 6).Blank collidingParams := Or.inl (Table.entries_empty 0 6)
  obtain ⟨scan, hstart, hindexes⟩ := newer_entries_are_nearer collidingParams collidingData 10
    (.empty 0 6) hvalid hsize hhistory hblank
  obtain ⟨answers, after, hcalls, hafter⟩ := hindexes 2
  have hindex : indexAfter collidingParams collidingData 10 (.empty 0 6) 2 =
      some ([some (.copy ⟨2, 10, 4⟩), some (.literals ⟨14, 18⟩)], 18, [[14, 14, 10, 6, 4, 0]]) := by
    decide +kernel
  simp only [indexAfter, hstart, hcalls] at hindex
  obtain ⟨rfl, hrest⟩ := Prod.mk.inj (Option.some.inj hindex)
  exact ⟨hvalid, hsize, hhistory, hblank, scan, after, hstart, hcalls, (Prod.mk.inj hrest).2,
    hafter⟩

end Scan

end LongMatch
