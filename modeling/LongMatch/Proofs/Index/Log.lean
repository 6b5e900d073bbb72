import LongMatch.Proofs.Index.Recent
/-!
# LongMatch.Proofs.Index.Log: a table is a log of the latest insertions

Inserting, filling and resetting are the operations that change a table. Filling is inserting, and a
reset table is a fresh one, so whatever is done to a fresh table leaves one in which the insertions
since the last reset were made: `performAll_cases`. What a bucket then yields are the last of those
that go to it, `entries_insertAll`. That no access is out of range is said of the slots of all
buckets laid end to end, `Table.cells`: an insertion sets one of them (`cells_insert`), and a bucket
is read at places among them (`newest_eq_cells`). The result is `table_is_recent_log`.
-/

namespace LongMatch

namespace Table

/-! ## What a table yields -/

/-- What a bucket of a table without entries yields after insertions: the last of those that came to
it, as many as it holds, without those of the vacant offset. -/
theorem entries_insertAll (bucketLog bucketSizeLog : Nat) (log : List Insertion) (key : Key) :
    ((empty bucketLog bucketSizeLog).insertAll log).entries key =
      ((((empty bucketLog bucketSizeLog).sharing key log).reverse.take
        (min (2 ^ bucketSizeLog) 256)).map Insertion.entry).filter (!·.isVacant) := by
  have hspare : ((empty bucketLog bucketSizeLog).bucket key).Spare := by
    rw [bucket_empty]
    exact Bucket.spare_empty _ _
  have hvacant : ∀ count, (((empty bucketLog bucketSizeLog).bucket key).held.take count).filter
      (!·.isVacant) = [] := by
    intro count
    apply List.filter_eq_nil_iff.mpr
    intro entry hmem
    rw [bucket_empty] at hmem
    simp [Bucket.isVacant_of_mem_held_empty _ (List.mem_of_mem_take hmem)]
  rw [entries, (spare_insertAll hspare log).live_eq, held_insertAll, List.take_append,
    List.filter_append, hvacant, List.append_nil, ← List.map_reverse, ← List.map_take]
  rfl

end Table

/-! ## Accesses -/

/-- A place in the row `i` of rows of one width. -/
theorem getElem?_flatten_of_width {α : Type} {rows : List (List α)} {width : Nat}
    (hwidth : ∀ row, row ∈ rows → row.length = width) (i : Nat) {j : Nat} (hj : j < width) :
    rows.flatten[i * width + j]? = rows[i]?.bind (·[j]?) := by
  induction rows generalizing i with
  | nil => rfl
  | cons row rows ih =>
    have hrow := hwidth row List.mem_cons_self
    have hrest := ih fun row' hrow' => hwidth row' (List.mem_cons_of_mem _ hrow')
    rw [List.flatten_cons]
    cases i with
    | zero =>
      rw [Nat.zero_mul, Nat.zero_add, List.getElem?_append_left (by omega)]
      rfl
    | succ i =>
      have hback : (i + 1) * width + j - row.length = i * width + j := by
        rw [Nat.add_mul, Nat.one_mul]
        omega
      rw [List.getElem?_append_right (by rw [Nat.add_mul, Nat.one_mul]; omega), hback, hrest]
      rfl

/-- Setting a place in the row `i` of rows of one width. -/
theorem flatten_set_of_width {α : Type} {rows : List (List α)} {width : Nat}
    (hwidth : ∀ row, row ∈ rows → row.length = width) {i : Nat} {row : List α}
    (hrow : rows[i]? = some row) {j : Nat} (hj : j < width) (x : α) :
    (rows.set i (row.set j x)).flatten = rows.flatten.set (i * width + j) x := by
  induction rows generalizing i with
  | nil => cases hrow
  | cons first rows ih =>
    have hfirst := hwidth first List.mem_cons_self
    rw [List.flatten_cons]
    cases i with
    | zero =>
      cases hrow
      rw [Nat.zero_mul, Nat.zero_add, List.set_append_left _ _ (by omega)]
      rfl
    | succ i =>
      have hback : (i + 1) * width + j - first.length = i * width + j := by
        rw [Nat.add_mul, Nat.one_mul]
        omega
      have hrest := ih (fun row' hrow' => hwidth row' (List.mem_cons_of_mem _ hrow')) hrow
      rw [List.set_append_right _ _ (by rw [Nat.add_mul, Nat.one_mul]; omega), hback, ← hrest]
      rfl

namespace Table

variable {table : Table}

/-- The slots of the buckets, bucket by bucket. -/
def rows (table : Table) : List (List Entry) :=
  table.buckets.toList.map fun bucket => bucket.slots.toList

/-- The slots of all buckets, laid end to end. -/
def cells (table : Table) : List Entry := table.rows.flatten

/-- The place among the cells of a slot of the key's bucket. -/
def placeOf (table : Table) (key : Key) (slot : Nat) : Nat :=
  table.indexOf key * 2 ^ table.bucketSizeLog + slot

theorem length_of_mem_rows {row : List Entry} (h : row ∈ table.rows) :
    row.length = 2 ^ table.bucketSizeLog := by
  obtain ⟨bucket, _, rfl⟩ := List.mem_map.mp h
  exact Vector.length_toList

/-- There are as many cells as the table has room for. -/
theorem length_cells (table : Table) : table.cells.length = table.capacity := by
  have hwidths : table.rows.map List.length =
      List.replicate (2 ^ table.bucketLog) (2 ^ table.bucketSizeLog) := by
    apply List.eq_replicate_iff.mpr
    refine ⟨by simp [rows], ?_⟩
    intro width hmem
    obtain ⟨row, hrow, rfl⟩ := List.mem_map.mp hmem
    exact length_of_mem_rows hrow
  rw [cells, List.length_flatten, hwidths, List.sum_replicate_nat, capacity, Nat.pow_add]

theorem getElem?_buckets (table : Table) (key : Key) :
    table.buckets.toList[table.indexOf key]? = some (table.bucket key) := by
  have hlt : table.indexOf key < table.buckets.toList.length := by
    rw [Vector.length_toList]
    exact key.bucketIndex_lt table.bucketLog
  rw [List.getElem?_eq_getElem hlt]
  rfl

theorem getElem?_rows (table : Table) (key : Key) :
    table.rows[table.indexOf key]? = some (table.bucket key).slots.toList := by
  rw [rows, List.getElem?_map, getElem?_buckets]
  rfl

/-- An insertion sets one cell, at the place of its bucket's next write. -/
theorem cells_insert (table : Table) (key : Key) (offset : UInt32) :
    (table.insert key offset).cells =
      table.cells.set (table.placeOf key (table.bucket key).next.toNat)
        ⟨offset, key.checksum⟩ := by
  have : Inhabited (Bucket (2 ^ table.bucketSizeLog)) := ⟨table.bucket key⟩
  -- the bucket of the key is replaced, and so is its row
  have hmodify : ((table.insert key offset).buckets.toList :
      List (Bucket (2 ^ table.bucketSizeLog))) =
        table.buckets.toList.modify (table.indexOf key) (·.push ⟨offset, key.checksum⟩) :=
    Array.toList_modify
  rw [List.modify_eq_set, getElem?_buckets, Option.getD_some] at hmodify
  have hrows : (table.insert key offset).rows =
      table.rows.set (table.indexOf key)
        ((table.bucket key).slots.toList.set (table.bucket key).next.toNat
          ⟨offset, key.checksum⟩) := by
    refine (congrArg (List.map fun bucket : Bucket (2 ^ table.bucketSizeLog) =>
      bucket.slots.toList) hmodify).trans ?_
    rw [List.map_set, Bucket.push, Vector.toList_set]
    rfl
  rw [cells, hrows]
  exact flatten_set_of_width (fun _ => length_of_mem_rows) (getElem?_rows table key)
    (table.bucket key).next_lt _

/-- A bucket is read at places among the cells, from the last write backwards. -/
theorem newest_eq_cells (table : Table) (key : Key) :
    (table.bucket key).newest.map some =
      (List.range' 1 (2 ^ table.bucketSizeLog)).map fun back =>
        table.cells[table.placeOf key ((table.bucket key).slotBack back)]? := by
  rw [Bucket.newest_eq_reads]
  apply List.map_congr_left
  intro back _
  have hslot : (table.bucket key).slotBack back < 2 ^ table.bucketSizeLog :=
    Nat.mod_lt _ (Nat.two_pow_pos _)
  rw [cells, placeOf, getElem?_flatten_of_width (fun _ => length_of_mem_rows) _ hslot,
    getElem?_rows]
  rfl

end Table

/-! ## Operations -/

/-- What changes a table. -/
inductive Operation where
  | insert (key : Key) (offset : UInt32)
  | fill (data : Buffer) (settings : Params)
  | reset
  deriving DecidableEq, Repr

namespace Operation

/-- The table after the operation. -/
def perform (table : Table) : Operation → Except Fault Table
  | insert key offset => .ok (table.insert key offset)
  | fill data settings => table.fill data settings
  | reset => .ok table.reset

/-- The insertions since the last reset, after the operation. Filling inserts the window before each
chunk end that leaves room for one. -/
def extend (log : List Insertion) : Operation → List Insertion
  | insert key offset => log ++ [⟨key, offset⟩]
  | fill data settings => log ++ (Table.fillWindows settings data).map Window.insertion
  | reset => []

/-- The insertions that the operations make after the last reset, in order. -/
def logOf (operations : List Operation) : List Insertion := operations.foldl extend []

/-- The operation asks to fill with settings for which there is no detector. -/
def Lacks (fault : Fault) (operation : Operation) : Prop :=
  ∃ data settings, operation = fill data settings ∧ Detector.ofParams settings = .error fault

/-- An operation extends the log, unless it lacks a detector. -/
theorem perform_cases (bucketLog bucketSizeLog : Nat) (log : List Insertion)
    (operation : Operation) :
    (∃ fault, operation.perform ((Table.empty bucketLog bucketSizeLog).insertAll log) =
        .error fault ∧ operation.Lacks fault) ∨
      operation.perform ((Table.empty bucketLog bucketSizeLog).insertAll log) =
        .ok ((Table.empty bucketLog bucketSizeLog).insertAll (operation.extend log)) := by
  cases operation with
  | insert key offset =>
    right
    rw [extend, Table.insertAll_append]
    rfl
  | fill data settings =>
    cases hdetector : Detector.ofParams settings with
    | error fault =>
      left
      refine ⟨fault, ?_, data, settings, rfl, hdetector⟩
      rw [perform, Table.fill, hdetector]
      rfl
    | ok detector =>
      right
      have hfill := Params.detector_of_ofParams hdetector ▸ hdetector
      rw [perform, Table.fill_of_ofParams hfill, extend, Table.insertAll_append,
        Table.recordAll_eq_insertAll]
  | reset =>
    right
    rw [perform, Table.reset, Table.bucketLog_insertAll, Table.bucketSizeLog_insertAll]
    rfl

end Operation

namespace Table

open Operation (logOf)

/-- The table after the operations, in order. -/
def performAll (table : Table) (operations : List Operation) : Except Fault Table :=
  operations.foldlM Operation.perform table

/-- Operations extend the log one after the other, up to the first that lacks a detector. -/
theorem performAll_cases (bucketLog bucketSizeLog : Nat) (log : List Insertion)
    (operations : List Operation) :
    (∃ fault operation, operation ∈ operations ∧ operation.Lacks fault ∧
        ((empty bucketLog bucketSizeLog).insertAll log).performAll operations = .error fault) ∨
      ((empty bucketLog bucketSizeLog).insertAll log).performAll operations =
        .ok ((empty bucketLog bucketSizeLog).insertAll
          (operations.foldl Operation.extend log)) := by
  induction operations generalizing log with
  | nil => exact Or.inr rfl
  | cons operation operations ih =>
    rw [performAll, List.foldlM_cons, List.foldl_cons]
    rcases operation.perform_cases bucketLog bucketSizeLog log with ⟨fault, hfault, hlacks⟩ | hok
    · rw [hfault]
      exact Or.inl ⟨fault, operation, List.mem_cons_self, hlacks, rfl⟩
    · rw [hok, Checked.ok_bind]
      rcases ih (operation.extend log) with ⟨fault, other, hmem, hlacks, hfault⟩ | hrest
      · exact Or.inl ⟨fault, other, List.mem_cons_of_mem _ hmem, hlacks, hfault⟩
      · exact Or.inr hrest

/-- The low bits of a key that choose its bucket in a table of these settings. -/
def lowBits (params : Params) (key : Key) : Nat :=
  key.bits.toNat % 2 ^ (params.hashLog - bucketSizeLogOf params)

/-- The entries for a key that a table of these settings keeps of a log: the latest insertions whose
keys agree in the low bits, as many as a bucket holds, newest first, without those of the vacant
offset. -/
def latest (params : Params) (log : List Insertion) (key : Key) : List Entry :=
  (((log.filter fun insertion => lowBits params insertion.key = lowBits params key).reverse.take
    (min (2 ^ bucketSizeLogOf params) 256)).map Insertion.entry).filter (!·.isVacant)

/-- A table keeps the latest insertions of a log, and is never accessed out of range. -/
structure Keeps (params : Params) (log : List Insertion) (table : Table) : Prop where
  entries_eq : ∀ key, table.entries key = latest params log key
  lookup_eq : ∀ key, table.lookup key = (latest params log key).head?.map Entry.offset
  /-- An insertion into one bucket does not change what the others yield. -/
  elsewhere : ∀ key other offset, lowBits params key ≠ lowBits params other →
    (table.insert key offset).entries other = table.entries other ∧
      (table.insert key offset).lookup other = table.lookup other
  length_cells : table.cells.length = 2 ^ params.hashLog
  indexOf_lt : ∀ key, table.indexOf key < 2 ^ (params.hashLog - bucketSizeLogOf params)
  /-- An insertion writes one cell of the table. -/
  writes : ∀ key offset,
    table.placeOf key (table.bucket key).next.toNat < table.cells.length ∧
      (table.insert key offset).cells =
        table.cells.set (table.placeOf key (table.bucket key).next.toNat) ⟨offset, key.checksum⟩
  /-- What a bucket yields is read from cells of the table. -/
  reads : ∀ key, ∃ slots : List Entry, table.entries key = slots.filter (!·.isVacant) ∧
    slots.map some = (List.range' 1 (2 ^ bucketSizeLogOf params)).map fun back =>
      table.cells[table.placeOf key ((table.bucket key).slotBack back)]?

theorem keeps_insertAll (params : Params) (log : List Insertion) :
    ((empty (params.hashLog - bucketSizeLogOf params) (bucketSizeLogOf params)).insertAll
      log).Keeps params log := by
  have hsum : params.hashLog - bucketSizeLogOf params + bucketSizeLogOf params =
      params.hashLog := Nat.sub_add_cancel (Nat.min_le_right _ _)
  obtain ⟨table, htable⟩ : ∃ table, table = (empty (params.hashLog - bucketSizeLogOf params)
    (bucketSizeLogOf params)).insertAll log := ⟨_, rfl⟩
  have hbuckets : table.bucketLog = params.hashLog - bucketSizeLogOf params := by
    rw [htable, bucketLog_insertAll]
    rfl
  have hslots : table.bucketSizeLog = bucketSizeLogOf params := by
    rw [htable, bucketSizeLog_insertAll]
    rfl
  have hentries : ∀ key, table.entries key = latest params log key := by
    intro key
    rw [htable, entries_insertAll]
    rfl
  have hcells : table.cells.length = 2 ^ params.hashLog := by
    rw [length_cells, capacity, hbuckets, hslots, hsum]
  rw [← htable]
  refine ⟨hentries, ?_, ?_, hcells, ?_, ?_, ?_⟩
  · intro key
    rw [lookup, hentries]
  · intro key other offset hbits
    have hne : table.indexOf key ≠ table.indexOf other := by
      simp only [indexOf, hbuckets]
      exact hbits
    have hsame : (table.insert key offset).entries other = table.entries other :=
      congrArg Bucket.live (bucket_insert_of_ne offset hne)
    exact ⟨hsame, by rw [lookup, hsame, lookup]⟩
  · intro key
    rw [← hbuckets]
    exact key.bucketIndex_lt table.bucketLog
  · intro key offset
    refine ⟨?_, table.cells_insert key offset⟩
    rw [length_cells]
    exact table.place_lt_capacity key (table.bucket key).next_lt
  · intro key
    refine ⟨(table.bucket key).newest, rfl, ?_⟩
    rw [← hslots]
    exact table.newest_eq_cells key

/-- **A table is a bounded log, newest first.** Whatever is inserted, filled and reset, in a table
of any settings that have one, each bucket yields the latest insertions since the last reset whose
keys share its low bits, and no access is out of range. Nothing fails but a fill with settings for
which there is no detector. -/
theorem table_is_recent_log (params : Params) (fresh : Table)
    (hfresh : Table.ofParams params = .ok fresh) (operations : List Operation) :
    (∃ fault operation, operation ∈ operations ∧ operation.Lacks fault ∧
        fresh.performAll operations = .error fault) ∨
      ∃ table, fresh.performAll operations = .ok table ∧
        table.Keeps params (logOf operations) := by
  have hempty : fresh = empty (params.hashLog - bucketSizeLogOf params)
      (bucketSizeLogOf params) := by
    unfold ofParams at hfresh
    split at hfresh
    · exact (Except.ok.inj hfresh).symm
    · cases hfresh
  rw [hempty]
  rcases performAll_cases (params.hashLog - bucketSizeLogOf params) (bucketSizeLogOf params) []
    operations with hfault | hok
  · exact Or.inl hfault
  · exact Or.inr ⟨_, hok, keeps_insertAll params _⟩

/-! ### A bucket of 512 slots

All keys share one bucket, and writes reach half of its slots. The first insertion is lost in the
reset, that of the fill and the one after it are pushed out, and the last of all is not shown. -/

def deepParams : Params := ⟨10, 9, 4, 0, 9⟩

def deepOperations : List Operation :=
  [.insert ⟨7⟩ 7, .reset, .fill #[1, 2, 3, 4] deepParams] ++
    (List.range 256).map (fun n => .insert ⟨n.toUInt64⟩ n.toUInt32) ++
      [.insert ⟨7⟩ Entry.vacantOffset]

theorem deep_bucket_keeps_latest :
    ∃ fresh table, Table.ofParams deepParams = .ok fresh ∧
      fresh.performAll deepOperations = .ok table ∧
        (table.entries ⟨0⟩).map Entry.offset =
          (List.range' 1 255).reverse.map Nat.toUInt32 ∧
        table.lookup ⟨0⟩ = some 255 := by
  obtain ⟨fresh, hfresh⟩ : ∃ fresh, Table.ofParams deepParams = .ok fresh := ⟨_, if_pos (by decide)⟩
  obtain ⟨fault, operation, hmem, ⟨data, settings, rfl, hfault⟩, _⟩ | ⟨table, htable, hkeeps⟩ :=
    table_is_recent_log deepParams fresh hfresh deepOperations
  · -- the settings of the one fill have a detector
    obtain ⟨_, hsettings⟩ : data = #[1, 2, 3, 4] ∧ settings = deepParams := by
      simpa [deepOperations] using hmem
    have hdetector : Detector.ofParams deepParams = .ok deepParams.detector := rfl
    rw [hsettings] at hfault
    cases hfault.symm.trans hdetector
  · have hoffsets : (table.entries ⟨0⟩).map Entry.offset =
        (List.range' 1 255).reverse.map Nat.toUInt32 := by
      rw [hkeeps.entries_eq]
      decide +kernel
    refine ⟨fresh, table, hfresh, htable, hoffsets, ?_⟩
    rw [lookup, ← List.head?_map, hoffsets]
    decide +kernel

end Table

end LongMatch
