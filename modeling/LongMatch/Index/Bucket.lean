/-!
# LongMatch.Index.Bucket: a bounded log of entries

An entry says that a window with the given checksum may start at the given offset. It is a hint:
whoever uses it compares the bytes. One offset is set aside to mark a slot without an entry, so
buffers are kept too short to reach it.

A bucket is a fixed number of slots and the place of the next write, which goes round; a write
replaces the oldest entry. The place is one byte: a bucket of more than 256 slots only ever uses
the first 256. `newest` lists the slots from the last write backwards.
-/

namespace LongMatch

/-- A hint that a window with this checksum starts at this offset. -/
structure Entry where
  offset : UInt32
  checksum : UInt32
  deriving DecidableEq, Repr

namespace Entry

/-- The offset that no window has. -/
def vacantOffset : UInt32 := 0xffffffff

/-- The content of a slot that was never written. -/
def vacant : Entry := ⟨vacantOffset, 0⟩

/-- Whether the slot holds no entry. -/
def isVacant (entry : Entry) : Bool := entry.offset == vacantOffset

@[simp] theorem isVacant_vacant : vacant.isVacant = true := by decide

end Entry

/-- The entries of one bucket. -/
structure Bucket (size : Nat) where
  slots : Vector Entry size
  /-- The slot of the next write. -/
  next : UInt8
  next_lt : next.toNat < size

namespace Bucket

variable {size : Nat}

@[ext] theorem ext {a b : Bucket size} (slots : a.slots = b.slots) (next : a.next = b.next) :
    a = b := by
  cases a; cases b; simp_all

/-- A bucket that was never written. -/
def empty (size : Nat) (size_pos : 0 < size) : Bucket size :=
  ⟨.replicate size .vacant, 0, size_pos⟩

theorem step_lt (next : UInt8) (size_pos : 0 < size) :
    ((next.toNat + 1) % size).toUInt8.toNat < size := by
  have := Nat.mod_lt (next.toNat + 1) size_pos
  simp only [Nat.toUInt8, UInt8.toNat_ofNat']
  exact Nat.lt_of_le_of_lt (Nat.mod_le _ _) this

/-- Writes an entry over the oldest one. -/
def push (bucket : Bucket size) (entry : Entry) : Bucket size :=
  ⟨bucket.slots.set bucket.next.toNat entry bucket.next_lt,
    ((bucket.next.toNat + 1) % size).toUInt8,
    step_lt bucket.next (Nat.zero_lt_of_lt bucket.next_lt)⟩

/-- All slots, the last written first. -/
def newest (bucket : Bucket size) : List Entry :=
  (bucket.slots.toList.drop bucket.next.toNat ++ bucket.slots.toList.take bucket.next.toNat).reverse

/-- The entries of the bucket, newest first. -/
def live (bucket : Bucket size) : List Entry := bucket.newest.filter (!·.isVacant)

@[simp] theorem length_newest (bucket : Bucket size) : bucket.newest.length = size := by
  have := bucket.next_lt
  simp only [newest, List.length_reverse, List.length_append, List.length_drop, List.length_take,
    Vector.length_toList]
  omega

theorem newest_empty (size : Nat) (size_pos : 0 < size) :
    (empty size size_pos).newest = List.replicate size .vacant := by
  simp [newest, empty]

end Bucket

end LongMatch
