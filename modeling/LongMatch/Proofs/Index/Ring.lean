import LongMatch.Index.Table
/-!
# LongMatch.Proofs.Index.Ring: a bucket of any size as a ring

The place of the next write is a byte, so writes go round the first 256 slots of a bucket, or all of
them if there are fewer: `Bucket.held`, from the last write backwards. A write puts its entry in
front and drops the last, whatever the size of the bucket (`held_push`). The slots beyond are never
written (`Spare`), so what a bucket yields are the entries held: `Spare.live_eq`. The slots are read
by going back from the place of the next write, and none is missed: `newest_eq_reads`. The
insertions of a log go each to its bucket, which holds the latest that came to it:
`Table.held_insertAll`.
-/

namespace LongMatch

namespace Bucket

variable {size : Nat} {bucket : Bucket size}

/-- The number of slots that writes reach. -/
def depth (size : Nat) : Nat := min size 256

/-- The slots that writes reach. -/
def reached (bucket : Bucket size) : List Entry := bucket.slots.toList.take 256

/-- The slots that writes reach, the last written first. -/
def held (bucket : Bucket size) : List Entry :=
  (bucket.reached.drop bucket.next.toNat ++ bucket.reached.take bucket.next.toNat).reverse

theorem length_reached (bucket : Bucket size) : bucket.reached.length = depth size := by
  simp only [reached, depth, List.length_take, Vector.length_toList]
  omega

theorem next_lt_depth (bucket : Bucket size) : bucket.next.toNat < depth size := by
  have hsize := bucket.next_lt
  have hbyte := bucket.next.toNat_lt
  simp only [depth]
  omega

theorem length_held (bucket : Bucket size) : bucket.held.length = depth size := by
  have hnext := bucket.next_lt_depth
  have hlength := bucket.length_reached
  simp only [held, List.length_reverse, List.length_append, List.length_drop, List.length_take]
  omega

/-- The place of the next write goes round the slots that writes reach. -/
theorem next_push (bucket : Bucket size) (entry : Entry) :
    (bucket.push entry).next.toNat =
      if bucket.next.toNat + 1 = depth size then 0 else bucket.next.toNat + 1 := by
  have hsize := bucket.next_lt
  have hbyte := bucket.next.toNat_lt
  have hnext : (bucket.push entry).next.toNat = (bucket.next.toNat + 1) % size % 256 := by
    simp [push, Nat.toUInt8]
  rw [hnext, depth]
  by_cases hround : bucket.next.toNat + 1 = size
  · rw [hround, Nat.mod_self, if_pos (by omega)]
  · rw [Nat.mod_eq_of_lt (show bucket.next.toNat + 1 < size by omega)]
    by_cases hbound : bucket.next.toNat + 1 = 256
    · rw [hbound, if_pos (by omega)]
    · rw [if_neg (by omega)]
      exact Nat.mod_eq_of_lt (by omega)

theorem reached_push (bucket : Bucket size) (entry : Entry) :
    (bucket.push entry).reached = bucket.reached.set bucket.next.toNat entry := by
  simp only [reached, push, Vector.toList_set, List.take_set]

/-- Rotating a list whose element `n` was replaced to start after it puts that element last. -/
theorem rotate_set (slots : List Entry) (entry : Entry) (n : Nat) (h : n < slots.length) :
    (slots.set n entry).drop (n + 1) ++ (slots.set n entry).take (n + 1) =
      (slots.drop n ++ slots.take n).tail ++ [entry] := by
  have drop : slots.drop n = slots[n] :: slots.drop (n + 1) := List.drop_eq_getElem_cons h
  rw [List.drop_set_of_lt (by omega), drop, List.take_add_one, List.take_set_of_le (Nat.le_refl n)]
  simp [h]

/-- A write puts its entry in front and drops the oldest entry held. -/
theorem held_push (bucket : Bucket size) (entry : Entry) :
    (bucket.push entry).held = entry :: bucket.held.dropLast := by
  have hroom := bucket.next_lt_depth
  have hlength := bucket.length_reached
  have hrotate := rotate_set bucket.reached entry bucket.next.toNat (by omega)
  have hrotated : (bucket.push entry).held =
      ((bucket.reached.drop bucket.next.toNat ++
        bucket.reached.take bucket.next.toNat).tail ++ [entry]).reverse := by
    rw [held, reached_push, next_push, ← hrotate]
    by_cases hround : bucket.next.toNat + 1 = depth size
    · -- starting after the last slot is starting at the first
      have hset : (bucket.reached.set bucket.next.toNat entry).length = bucket.next.toNat + 1 := by
        rw [List.length_set, hlength, hround]
      rw [if_pos hround, List.drop_zero, List.take_zero, List.append_nil,
        List.drop_of_length_le (Nat.le_of_eq hset), List.take_of_length_le (Nat.le_of_eq hset),
        List.nil_append]
    · rw [if_neg hround]
  rw [hrotated, List.reverse_append, held, List.dropLast_reverse]
  rfl

/-! ## The slots beyond -/

/-- The slots beyond the reach of writes are vacant. -/
def Spare (bucket : Bucket size) : Prop :=
  ∀ entry, entry ∈ bucket.slots.toList.drop 256 → entry.isVacant = true

theorem isVacant_of_mem_empty (size_pos : 0 < size) {entry : Entry}
    (h : entry ∈ (empty size size_pos).slots.toList) : entry.isVacant = true := by
  simp only [empty, Vector.toList_replicate] at h
  rw [List.eq_of_mem_replicate h]
  exact Entry.isVacant_vacant

theorem spare_empty (size : Nat) (size_pos : 0 < size) : (empty size size_pos).Spare := by
  intro entry hmem
  exact isVacant_of_mem_empty size_pos (List.mem_of_mem_drop hmem)

theorem Spare.push (h : bucket.Spare) (entry : Entry) : (bucket.push entry).Spare := by
  have hbyte := bucket.next.toNat_lt
  intro other hmem
  rw [Bucket.push, Vector.toList_set, List.drop_set_of_lt (by omega)] at hmem
  exact h other hmem

/-- What a bucket yields are the entries held. -/
theorem Spare.live_eq (h : bucket.Spare) : bucket.live = bucket.held.filter (!·.isVacant) := by
  have hnext : bucket.next.toNat ≤ bucket.reached.length := by
    rw [length_reached]
    exact Nat.le_of_lt bucket.next_lt_depth
  have hslots : bucket.slots.toList = bucket.reached ++ bucket.slots.toList.drop 256 :=
    (List.take_append_drop 256 _).symm
  have hspare : (bucket.slots.toList.drop 256).reverse.filter (!·.isVacant) = [] := by
    apply List.filter_eq_nil_iff.mpr
    intro entry hmem
    simp [h entry (List.mem_reverse.mp hmem)]
  -- the slots beyond come between the two parts of the ring, and none of them counts
  rw [live, newest, held, hslots, List.drop_append_of_le_length hnext,
    List.take_append_of_le_length hnext]
  simp only [List.reverse_append, List.filter_append, hspare, List.nil_append]

/-- A bucket that was never written holds no entry. -/
theorem isVacant_of_mem_held_empty (size_pos : 0 < size) {entry : Entry}
    (h : entry ∈ (empty size size_pos).held) : entry.isVacant = true := by
  apply isVacant_of_mem_empty size_pos
  simp only [held, reached, List.mem_reverse, List.mem_append] at h
  rcases h with hdrop | htake
  · exact List.mem_of_mem_take (List.mem_of_mem_drop hdrop)
  · exact List.mem_of_mem_take (List.mem_of_mem_take htake)

/-! ## Reading -/

/-- The slot written `back` writes ago, the last write being one ago. -/
def slotBack (bucket : Bucket size) (back : Nat) : Nat := (bucket.next.toNat + size - back) % size

theorem getElem?_newest (bucket : Bucket size) {i : Nat} (hi : i < size) :
    bucket.newest[i]? = bucket.slots.toList[bucket.slotBack (1 + i)]? := by
  have hnext := bucket.next_lt
  have hlength : bucket.slots.toList.length = size := Vector.length_toList
  have hdrop : (bucket.slots.toList.drop bucket.next.toNat).length = size - bucket.next.toNat := by
    rw [List.length_drop, hlength]
  have htake : (bucket.slots.toList.take bucket.next.toNat).length = bucket.next.toNat := by
    rw [List.length_take, hlength]
    omega
  rw [newest, List.getElem?_reverse (by rw [List.length_append]; omega), List.length_append, hdrop,
    htake, slotBack]
  by_cases hlow : i < bucket.next.toNat
  · -- the slots before the next write come first, backwards
    rw [List.getElem?_append_right (by omega), hdrop, List.getElem?_take_of_lt (by omega),
      Nat.mod_eq_sub_mod (by omega), Nat.mod_eq_of_lt (by omega)]
    congr 1
    omega
  · rw [List.getElem?_append_left (by omega), List.getElem?_drop, Nat.mod_eq_of_lt (by omega)]
    congr 1
    omega

/-- From the last write backwards every slot is read once. -/
theorem newest_eq_reads (bucket : Bucket size) :
    bucket.newest.map some =
      (List.range' 1 size).map fun back => bucket.slots.toList[bucket.slotBack back]? := by
  apply List.ext_getElem
  · simp
  · intro i hi hi'
    have hroom : i < size := by simpa using hi
    simp only [List.getElem_map, List.getElem_range', Nat.one_mul]
    rw [← getElem?_newest bucket hroom, List.getElem?_eq_getElem]

/-- In a bucket that is not too large writes reach all slots. -/
theorem newest_eq_held (hsmall : size ≤ 256) : bucket.newest = bucket.held := by
  have hreached : bucket.reached = bucket.slots.toList :=
    List.take_of_length_le (by rw [Vector.length_toList]; exact hsmall)
  rw [held, hreached, newest]

theorem newest_push (bucket : Bucket size) (entry : Entry) (hsmall : size ≤ 256) :
    (bucket.push entry).newest = entry :: bucket.newest.dropLast := by
  rw [newest_eq_held hsmall, newest_eq_held hsmall]
  exact held_push bucket entry

end Bucket

/-! ## Insertions -/

/-- An insertion into a table. -/
structure Insertion where
  key : Key
  offset : UInt32
  deriving DecidableEq, Repr

/-- The entry that an insertion leaves. -/
def Insertion.entry (insertion : Insertion) : Entry := ⟨insertion.offset, insertion.key.checksum⟩

namespace Table

variable {table : Table}

/-- The table after the insertions, in order. -/
def insertAll (table : Table) (log : List Insertion) : Table :=
  log.foldl (fun table insertion => table.insert insertion.key insertion.offset) table

theorem insertAll_append (table : Table) (first rest : List Insertion) :
    table.insertAll (first ++ rest) = (table.insertAll first).insertAll rest :=
  List.foldl_append

theorem bucketLog_insertAll (table : Table) (log : List Insertion) :
    (table.insertAll log).bucketLog = table.bucketLog := by
  induction log generalizing table with
  | nil => rfl
  | cons insertion log ih => exact ih (table.insert insertion.key insertion.offset)

theorem bucketSizeLog_insertAll (table : Table) (log : List Insertion) :
    (table.insertAll log).bucketSizeLog = table.bucketSizeLog := by
  induction log generalizing table with
  | nil => rfl
  | cons insertion log ih => exact ih (table.insert insertion.key insertion.offset)

/-- The insertions of a log that go to the key's bucket, in order. -/
def sharing (table : Table) (key : Key) (log : List Insertion) : List Insertion :=
  log.filter fun insertion => table.indexOf insertion.key = table.indexOf key

theorem held_insert_of_eq {key other : Key} (offset : UInt32)
    (h : table.indexOf key = table.indexOf other) :
    ((table.insert key offset).bucket other).held =
      ⟨offset, key.checksum⟩ :: (table.bucket other).held.dropLast := by
  rw [bucket_insert, if_pos h]
  exact Bucket.held_push _ _

theorem bucket_insert_of_ne {key other : Key} (offset : UInt32)
    (h : table.indexOf key ≠ table.indexOf other) :
    (table.insert key offset).bucket other = table.bucket other :=
  (bucket_insert ..).trans (if_neg h)

theorem spare_insert {key other : Key} (h : (table.bucket other).Spare) (offset : UInt32) :
    ((table.insert key offset).bucket other).Spare := by
  rw [bucket_insert]
  split
  · exact h.push _
  · exact h

theorem spare_insertAll {key : Key} (h : (table.bucket key).Spare) (log : List Insertion) :
    ((table.insertAll log).bucket key).Spare := by
  induction log generalizing table with
  | nil => exact h
  | cons insertion log ih => exact ih (spare_insert h insertion.offset)

/-- Within the length of a list, it makes no difference whether its last element is dropped when
another one is put in front. -/
theorem take_append_cons_dropLast {α : Type} (front list : List α) (x : α) :
    (front ++ x :: list.dropLast).take list.length = (front ++ x :: list).take list.length := by
  rw [List.dropLast_eq_take, List.take_append, List.take_append]
  congr 1
  cases hroom : list.length - front.length with
  | zero => rfl
  | succ room =>
    rw [List.take_succ_cons, List.take_succ_cons, List.take_take, Nat.min_eq_left (by omega)]

/-- What a bucket holds after insertions: those that came to it, the last one first, and then what
it held before, as far as there is room. -/
theorem held_insertAll (table : Table) (log : List Insertion) (key : Key) :
    ((table.insertAll log).bucket key).held =
      (((table.sharing key log).map Insertion.entry).reverse ++ (table.bucket key).held).take
        (Bucket.depth (2 ^ table.bucketSizeLog)) := by
  induction log generalizing table with
  | nil =>
    exact (List.take_of_length_le (Nat.le_of_eq (Bucket.length_held _))).symm
  | cons insertion log ih =>
    have hrest := ih (table.insert insertion.key insertion.offset)
    by_cases h : table.indexOf insertion.key = table.indexOf key
    · -- the insertion goes in front of what the bucket held and pushes the last entry out
      have hsharing : table.sharing key (insertion :: log) = insertion :: table.sharing key log :=
        List.filter_cons_of_pos (by simpa using h)
      have hlength := Bucket.length_held (table.bucket key)
      have htake := take_append_cons_dropLast ((table.sharing key log).map Insertion.entry).reverse
        (table.bucket key).held insertion.entry
      rw [hlength] at htake
      rw [held_insert_of_eq insertion.offset h] at hrest
      rw [hsharing, List.map_cons, List.reverse_cons, List.append_assoc]
      exact hrest.trans htake
    · have hsharing : table.sharing key (insertion :: log) = table.sharing key log :=
        List.filter_cons_of_neg (by simpa using h)
      rw [bucket_insert_of_ne insertion.offset h] at hrest
      rw [hsharing]
      exact hrest

end Table

end LongMatch
