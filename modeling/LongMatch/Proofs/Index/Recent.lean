import LongMatch.Proofs.Index.Filing
/-!
# LongMatch.Proofs.Index.Recent: what a bucket yields after windows were filed

The windows that go to one bucket, out of a list that is filed, are `Table.shelved`. Afterwards the
slots of that bucket, the last written first, are the entries of these windows in reverse and behind
them what the bucket held before, cut to the size of the bucket: `newest_recordAll`. So an entry is
still there for as long as fewer windows than the bucket has slots came to it since:
`entry_mem_entries`. And a table without entries in which windows of a buffer are filed has no entry
but for those: `Faithful.recordAll`.
-/

namespace LongMatch

namespace Table

variable {table : Table} {params : Params}

/-! ## The size of a bucket -/

/-- In valid settings a bucket has 256 slots at most, so its place for the next write reaches all
of them. -/
theorem Sized.bucketSize_le (h : table.Sized params) (valid : params.Valid) :
    2 ^ table.bucketSizeLog ≤ 256 := by
  have hlimit : params.bucketSizeLog ≤ 8 :=
    Nat.le_trans valid.bucketSizeLog (Nat.min_le_left _ _)
  have hlog : table.bucketSizeLog ≤ 8 := by
    rw [h.bucketSizeLog_eq]
    exact Nat.le_trans (Nat.min_le_left _ _) hlimit
  exact Nat.pow_le_pow_right (by decide) hlog

/-- In valid settings a bucket is as large as they ask for. -/
theorem Sized.bucketSizeLog_of_valid (h : table.Sized params) (valid : params.Valid) :
    table.bucketSizeLog = params.bucketSizeLog := by
  rw [h.bucketSizeLog_eq]
  exact Nat.min_eq_left (Nat.le_trans valid.bucketSizeLog (Nat.min_le_right _ _))

/-! ## One bucket -/

/-- The windows of a list that go to the key's bucket, in order. -/
def shelved (table : Table) (key : Key) (windows : List Window) : List Window :=
  windows.filter fun window => table.indexOf window.key = table.indexOf key

theorem shelved_append (table : Table) (key : Key) (first rest : List Window) :
    table.shelved key (first ++ rest) = table.shelved key first ++ table.shelved key rest :=
  List.filter_append ..

theorem shelved_self (table : Table) (window : Window) (windows : List Window) :
    table.shelved window.key (window :: windows) =
      window :: table.shelved window.key windows :=
  List.filter_cons_of_pos (by simp)

theorem indexOf_recordAll (table : Table) (windows : List Window) (key : Key) :
    (table.recordAll windows).indexOf key = table.indexOf key := by
  induction windows generalizing table with
  | nil => rfl
  | cons window windows ih => exact ih (table.record window)

theorem bucketSizeLog_recordAll (table : Table) (windows : List Window) :
    (table.recordAll windows).bucketSizeLog = table.bucketSizeLog := by
  rw [recordAll_eq_insertAll, bucketSizeLog_insertAll]

theorem newest_record_of_eq {window : Window} {key : Key} (hsmall : 2 ^ table.bucketSizeLog ≤ 256)
    (h : table.indexOf window.key = table.indexOf key) :
    ((table.record window).bucket key).newest =
      window.entry :: (table.bucket key).newest.dropLast := by
  rw [record, bucket_insert, if_pos h]
  exact Bucket.newest_push _ _ hsmall

theorem newest_record_of_ne {window : Window} {key : Key}
    (h : table.indexOf window.key ≠ table.indexOf key) :
    ((table.record window).bucket key).newest = (table.bucket key).newest := by
  exact congrArg Bucket.newest (bucket_insert_of_ne _ h)

/-- The slots of a bucket after filing: the windows that came to it, the last one first, and then
what it held before, as far as there is room. -/
theorem newest_recordAll (hsmall : 2 ^ table.bucketSizeLog ≤ 256) (windows : List Window)
    (key : Key) :
    ((table.recordAll windows).bucket key).newest =
      (((table.shelved key windows).map Window.entry).reverse ++ (table.bucket key).newest).take
        (2 ^ table.bucketSizeLog) := by
  have hsmall' : 2 ^ (table.recordAll windows).bucketSizeLog ≤ 256 := by
    rwa [bucketSizeLog_recordAll]
  have hsharing : table.sharing key (windows.map Window.insertion) =
      (table.shelved key windows).map Window.insertion := List.filter_map
  -- in a bucket this small writes reach all slots
  rw [Bucket.newest_eq_held hsmall', Bucket.newest_eq_held hsmall]
  have hheld := held_insertAll table (windows.map Window.insertion) key
  rw [← recordAll_eq_insertAll, hsharing, List.map_map, Bucket.depth,
    Nat.min_eq_left hsmall] at hheld
  exact hheld

/-- A window that was filed has its entry in its bucket for as long as fewer windows than the bucket
has slots were filed there since. -/
theorem entry_mem_entries {older newer : List Window} {window : Window}
    (hsmall : 2 ^ table.bucketSizeLog ≤ 256) (hstorable : window.Storable)
    (hrecent : (table.shelved window.key newer).length < 2 ^ table.bucketSizeLog) :
    window.entry ∈ (table.recordAll (older ++ window :: newer)).entries window.key := by
  apply List.mem_filter.mpr
  refine ⟨?_, by rw [hstorable.isVacant_entry]; rfl⟩
  rw [newest_recordAll hsmall, shelved_append, shelved_self, List.map_append, List.map_cons,
    List.reverse_append, List.reverse_cons, List.append_assoc, List.append_assoc, List.take_append]
  -- the entry stands behind those of the newer windows, and there is room for one more
  apply List.mem_append_right
  obtain ⟨room, hroom⟩ : ∃ room, 2 ^ table.bucketSizeLog -
      ((table.shelved window.key newer).map Window.entry).reverse.length = room + 1 := by
    rw [List.length_reverse, List.length_map]
    exact ⟨_, (Nat.succ_pred_eq_of_pos (Nat.sub_pos_of_lt hrecent)).symm⟩
  rw [hroom, List.singleton_append, List.take_succ_cons]
  exact List.mem_cons_self

/-! ## A table without its entries -/

theorem bucket_empty (bucketLog bucketSizeLog : Nat) (key : Key) :
    (empty bucketLog bucketSizeLog).bucket key = .empty _ (Nat.two_pow_pos bucketSizeLog) := by
  simp [bucket, empty, Vector.get]

theorem newest_empty (bucketLog bucketSizeLog : Nat) (key : Key) :
    ((empty bucketLog bucketSizeLog).bucket key).newest =
      List.replicate (2 ^ bucketSizeLog) .vacant :=
  (congrArg Bucket.newest (bucket_empty bucketLog bucketSizeLog key)).trans
    (Bucket.newest_empty _ (Nat.two_pow_pos bucketSizeLog))

theorem entries_empty (bucketLog bucketSizeLog : Nat) (key : Key) :
    (empty bucketLog bucketSizeLog).entries key = [] := by
  rw [entries, Bucket.live, newest_empty]
  exact List.filter_replicate_of_neg (by simp)

theorem entries_reset (table : Table) (key : Key) : table.reset.entries key = [] :=
  entries_empty ..

/-- Settings that have a table have an empty one. -/
theorem eq_empty_of_ofParams {fresh : Table} (hfresh : ofParams params = .ok fresh) :
    fresh = empty (params.hashLog - bucketSizeLogOf params) (bucketSizeLogOf params) := by
  unfold ofParams at hfresh
  split at hfresh
  · exact (Except.ok.inj hfresh).symm
  · cases hfresh

/-! ## Where entries come from -/

/-- An entry stands for a window that was filed in its bucket, or was there before. -/
theorem of_mem_entries_recordAll (hsmall : 2 ^ table.bucketSizeLog ≤ 256) {windows : List Window}
    {key : Key} {entry : Entry} (h : entry ∈ (table.recordAll windows).entries key) :
    (∃ window, window ∈ windows ∧ table.indexOf window.key = table.indexOf key ∧
        entry = window.entry) ∨ entry ∈ table.entries key := by
  obtain ⟨hslot, hlive⟩ := List.mem_filter.mp h
  rw [newest_recordAll hsmall] at hslot
  rcases List.mem_append.mp (List.mem_of_mem_take hslot) with hnew | hold
  · obtain ⟨window, hshelved, rfl⟩ := List.mem_map.mp (List.mem_reverse.mp hnew)
    obtain ⟨hmem, hindex⟩ := List.mem_filter.mp hshelved
    exact Or.inl ⟨window, hmem, of_decide_eq_true hindex, rfl⟩
  · exact Or.inr (List.mem_filter.mpr ⟨hold, hlive⟩)

/-- Every entry stands for a window of the buffer, filed in the bucket of its key. -/
def Faithful (data : Buffer) (length : Nat) (table : Table) : Prop :=
  ∀ key entry, entry ∈ table.entries key → ∃ window : Window, window.Taken data length ∧
    table.indexOf window.key = table.indexOf key ∧ entry = window.entry

theorem faithful_of_entries {data : Buffer} {length : Nat}
    (h : ∀ key, table.entries key = []) : table.Faithful data length := by
  intro key entry hmem
  rw [h key] at hmem
  cases hmem

/-- Filing windows of the buffer keeps a table faithful to it. -/
theorem Faithful.recordAll {data : Buffer} {length : Nat} (h : table.Faithful data length)
    (hsmall : 2 ^ table.bucketSizeLog ≤ 256) {windows : List Window}
    (htaken : ∀ window, window ∈ windows → window.Taken data length) :
    (table.recordAll windows).Faithful data length := by
  have hindex : ∀ key, (table.recordAll windows).indexOf key = table.indexOf key :=
    table.indexOf_recordAll windows
  intro key entry hmem
  simp only [hindex]
  rcases of_mem_entries_recordAll hsmall hmem with ⟨window, hwindow, hsame, rfl⟩ | hold
  · exact ⟨window, htaken window hwindow, hsame, rfl⟩
  · exact h key entry hold

theorem Faithful.record {data : Buffer} {length : Nat} (h : table.Faithful data length)
    (hsmall : 2 ^ table.bucketSizeLog ≤ 256) {window : Window} (htaken : window.Taken data length) :
    (table.record window).Faithful data length := by
  have hall : ∀ other, other ∈ [window] → other.Taken data length := by
    intro other hmem
    rwa [List.mem_singleton.mp hmem]
  have hrecord : table.record window = table.recordAll [window] := rfl
  rw [hrecord]
  exact h.recordAll hsmall hall

end Table

end LongMatch
