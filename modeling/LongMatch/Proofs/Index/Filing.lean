import LongMatch.Proofs.Chunk.Advance
import LongMatch.Proofs.Index.Ring
import LongMatch.Proofs.Params.Sizes
/-!
# LongMatch.Proofs.Index.Filing: what is filed, as a log

`Table.recordAll` files a list of windows one after another, so that what a history or a scan adds
to a table is a list. Each window is filed by one insertion, `Window.insertion`:
`recordAll_eq_insertAll`. Filling a table is filing `Table.fillWindows`: `fill_eq`. A table keeps
its size whatever is filed. What is filed are windows of the buffer, `Window.Taken`, and their
offsets are stored as they are: `Window.Taken.storable`.
-/

namespace LongMatch

/-! ## Windows -/

namespace Window

/-- The window of `length` bytes before `stop`. -/
def before (data : Buffer) (length stop : Nat) : Window :=
  ⟨stop - length, .ofWindow (data.extract (stop - length) stop)⟩

/-- The entry that stands for a window. -/
def entry (window : Window) : Entry := ⟨window.start.toUInt32, window.key.checksum⟩

/-- The insertion that files a window. -/
def insertion (window : Window) : Insertion := ⟨window.key, window.start.toUInt32⟩

/-- The offset that is inserted for a window is its start and not that of a vacant slot. -/
structure Storable (window : Window) : Prop where
  untruncated : window.insertion.offset.toNat = window.start
  not_vacant : window.insertion.offset ≠ Entry.vacantOffset

theorem Storable.offset_entry {window : Window} (h : window.Storable) :
    window.entry.offset.toNat = window.start := h.untruncated

theorem Storable.isVacant_entry {window : Window} (h : window.Storable) :
    window.entry.isVacant = false :=
  beq_eq_false_iff_ne.mpr h.not_vacant

theorem storable_before {data : Buffer} {length stop : Nat}
    (hsmall : data.size < Entry.vacantOffset.toNat) (hstop : stop ≤ data.size) :
    (before data length stop).Storable := by
  have hbound : Entry.vacantOffset.toNat = 4294967295 := rfl
  have hle : (before data length stop).start ≤ stop := Nat.sub_le _ _
  have hexact : (before data length stop).insertion.offset.toNat =
      (before data length stop).start := by
    rw [insertion, Nat.toUInt32, UInt32.toNat_ofNat']
    exact Nat.mod_eq_of_lt (by omega)
  refine ⟨hexact, ?_⟩
  -- the vacant offset is beyond the buffer
  intro hvacant
  rw [hvacant] at hexact
  omega

/-- The window is one of the buffer: the `length` bytes before some place in it. -/
def Taken (data : Buffer) (length : Nat) (window : Window) : Prop :=
  ∃ stop, length ≤ stop ∧ stop ≤ data.size ∧ window = before data length stop

theorem Taken.storable {data : Buffer} {length : Nat} {window : Window}
    (h : window.Taken data length) (hsmall : data.size < Entry.vacantOffset.toNat) :
    window.Storable := by
  obtain ⟨stop, _, hstop, rfl⟩ := h
  exact storable_before hsmall hstop

/-- A window of the buffer has the key of the bytes it starts at. -/
theorem Taken.key_eq {data : Buffer} {length : Nat} {window : Window}
    (h : window.Taken data length) :
    window.key = .ofWindow (data.extract window.start (window.start + length)) := by
  obtain ⟨stop, hroom, _, rfl⟩ := h
  show Key.ofWindow (data.extract (stop - length) stop) =
    .ofWindow (data.extract (stop - length) (stop - length + length))
  rw [Nat.sub_add_cancel hroom]

/-- A window of the front of a buffer is one of the buffer. -/
theorem Taken.of_front {data : Buffer} {length size : Nat} {window : Window}
    (h : window.Taken (data.extract 0 size) length) : window.Taken data length := by
  obtain ⟨stop, hroom, hstop, rfl⟩ := h
  rw [Array.size_extract] at hstop
  refine ⟨stop, hroom, by omega, ?_⟩
  rw [before, before, Array.extract_extract, Nat.zero_add, Nat.zero_add,
    Nat.min_eq_left (by omega)]

end Window

/-! ## Logs -/

namespace Table

variable {table : Table} {params : Params} {data : Buffer}

/-- The table after filing the windows, in order. -/
def recordAll (table : Table) (windows : List Window) : Table := windows.foldl record table

theorem recordAll_append (table : Table) (first rest : List Window) :
    table.recordAll (first ++ rest) = (table.recordAll first).recordAll rest :=
  List.foldl_append

/-- Filing is inserting. -/
theorem recordAll_eq_insertAll (table : Table) (windows : List Window) :
    table.recordAll windows = table.insertAll (windows.map Window.insertion) := by
  rw [insertAll, List.foldl_map]
  rfl

/-- The table has the size that the settings ask for. -/
structure Sized (params : Params) (table : Table) : Prop where
  bucketSizeLog_eq : table.bucketSizeLog = bucketSizeLogOf params
  sum_eq : table.bucketLog + table.bucketSizeLog = params.hashLog

theorem Sized.record (h : table.Sized params) (window : Window) :
    (table.record window).Sized params := ⟨h.bucketSizeLog_eq, h.sum_eq⟩

theorem Sized.recordAll (h : table.Sized params) (windows : List Window) :
    (table.recordAll windows).Sized params := by
  induction windows generalizing table with
  | nil => exact h
  | cons window windows ih => exact ih (h.record window)

/-- No bucket yields more entries than it has slots. -/
theorem length_entries_le (table : Table) (key : Key) :
    (table.entries key).length ≤ 2 ^ table.bucketSizeLog := by
  have hfilter : (table.entries key).length ≤ (table.bucket key).newest.length :=
    List.length_filter_le _ _
  rwa [Bucket.length_newest] at hfilter

/-- Every slot of the key's bucket has a place in the table, the buckets laid end to end. -/
theorem place_lt_capacity (table : Table) (key : Key) {slot : Nat}
    (hslot : slot < 2 ^ table.bucketSizeLog) :
    table.indexOf key * 2 ^ table.bucketSizeLog + slot < table.capacity := by
  have hindex : table.indexOf key + 1 ≤ 2 ^ table.bucketLog := key.bucketIndex_lt table.bucketLog
  calc table.indexOf key * 2 ^ table.bucketSizeLog + slot
      < table.indexOf key * 2 ^ table.bucketSizeLog + 2 ^ table.bucketSizeLog :=
        Nat.add_lt_add_left hslot _
    _ = (table.indexOf key + 1) * 2 ^ table.bucketSizeLog := (Nat.succ_mul _ _).symm
    _ ≤ 2 ^ table.bucketLog * 2 ^ table.bucketSizeLog := Nat.mul_le_mul_right _ hindex
    _ = table.capacity := (Nat.pow_add _ _ _).symm

/-! ## Filling -/

/-- The windows that filling files, in order: those before the chunk ends that leave room. -/
def fillWindows (params : Params) (data : Buffer) : List Window :=
  ((params.detector.chunkEnds data).toList.filter (params.minChunk ≤ ·)).map
    (Window.before data params.minChunk)

/-- Filing at the chunk ends is filing the windows before those that leave room. -/
theorem foldlM_fileChunkEnd {length : Nat} {stops : List Nat}
    (h : ∀ stop, stop ∈ stops → stop ≤ data.size) :
    stops.foldlM (fileChunkEnd data length) table =
      .ok (table.recordAll ((stops.filter (length ≤ ·)).map (Window.before data length))) := by
  induction stops generalizing table with
  | nil => rfl
  | cons stop stops ih =>
    have hrest : ∀ s, s ∈ stops → s ≤ data.size := by
      intro s hs
      exact h s (List.mem_cons_of_mem _ hs)
    rw [List.foldlM_cons]
    by_cases hroom : length ≤ stop
    · have hfile : fileChunkEnd data length table stop =
          .ok (table.record (.before data length stop)) := by
        rw [fileChunkEnd, if_neg (by omega),
          Window.endingAt_of_le hroom (h stop List.mem_cons_self)]
        rfl
      rw [hfile, Checked.ok_bind, ih hrest, List.filter_cons_of_pos (by simpa using hroom)]
      rfl
    · -- no whole window lies before this chunk end
      have hfile : fileChunkEnd data length table stop = .ok table := by
        rw [fileChunkEnd, if_pos (by omega)]
      rw [hfile, Checked.ok_bind, ih hrest, List.filter_cons_of_neg (by simpa using hroom)]

/-- Filling a table is filing its windows, whenever the settings have a detector. -/
theorem fill_of_ofParams (h : Detector.ofParams params = .ok params.detector) :
    table.fill data params = .ok (table.recordAll (fillWindows params data)) := by
  rw [fill, h, Checked.ok_bind, ← Array.foldlM_toList]
  apply foldlM_fileChunkEnd
  intro stop hmem
  exact Detector.le_size_of_mem_chunkEnds (Array.mem_toList_iff.mp hmem)

theorem fill_eq (valid : params.Valid) :
    table.fill data params = .ok (table.recordAll (fillWindows params data)) :=
  fill_of_ofParams valid.detector_eq

theorem taken_of_mem_fillWindows {window : Window} (h : window ∈ fillWindows params data) :
    window.Taken data params.minChunk := by
  obtain ⟨stop, hmem, rfl⟩ := List.mem_map.mp h
  obtain ⟨hend, hroom⟩ := List.mem_filter.mp hmem
  exact ⟨stop, of_decide_eq_true hroom,
    Detector.le_size_of_mem_chunkEnds (Array.mem_toList_iff.mp hend), rfl⟩

end Table

end LongMatch
