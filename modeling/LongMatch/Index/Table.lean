import LongMatch.Chunk.Chunker
import LongMatch.Index.Bucket
import LongMatch.Index.Key
/-!
# LongMatch.Index.Table: the windows seen so far, by key

A table is a power of two of buckets, each with room for a power of two of entries. Inserting
replaces the oldest entry of the key's bucket and leaves every other bucket alone; looking up gives
the entries of the key's bucket, newest first. Entries are hints: a bucket is shared by many keys,
and a table may hold what another buffer left.

Filling files the window before each chunk end of a buffer and looks nothing up. It primes a table
with bytes that come before those to be scanned. A chunk end too close to the start for a whole
window is passed over.
-/

namespace LongMatch

/-- The windows seen so far, by key. -/
structure Table where
  /-- There are 2 to this power buckets. -/
  bucketLog : Nat
  /-- A bucket has 2 to this power entries. -/
  bucketSizeLog : Nat
  buckets : Vector (Bucket (2 ^ bucketSizeLog)) (2 ^ bucketLog)

namespace Table

/-- A table without entries. -/
def empty (bucketLog bucketSizeLog : Nat) : Table :=
  ⟨bucketLog, bucketSizeLog, .replicate _ (.empty _ (Nat.two_pow_pos _))⟩

/-- The bucket size for the given settings; a bucket is never larger than the table. -/
def bucketSizeLogOf (params : Params) : Nat := min params.bucketSizeLog params.hashLog

/-- From this power on, the entries of a table outgrow the address space. -/
def hashLogBound : Nat := 60

/-- A table without entries, of the size that the settings ask for. -/
def ofParams (params : Params) : Except Fault Table :=
  if params.hashLog < hashLogBound then
    .ok (empty (params.hashLog - bucketSizeLogOf params) (bucketSizeLogOf params))
  else .error .tableTooLarge

/-- The table of the same size without its entries. -/
def reset (table : Table) : Table := empty table.bucketLog table.bucketSizeLog

/-- The number of entries there is room for. -/
def capacity (table : Table) : Nat := 2 ^ (table.bucketLog + table.bucketSizeLog)

/-- Whether the table has the size that the settings ask for. -/
def fits (table : Table) (params : Params) : Except Fault Bool := do
  let capacity ← Checked.pow2 params.hashLog
  return table.capacity == capacity && table.bucketSizeLog == bucketSizeLogOf params

/-- The number of the key's bucket. -/
def indexOf (table : Table) (key : Key) : Nat := key.bucketIndex table.bucketLog

/-- The key's bucket. -/
def bucket (table : Table) (key : Key) : Bucket (2 ^ table.bucketSizeLog) :=
  table.buckets.get ⟨table.indexOf key, key.bucketIndex_lt table.bucketLog⟩

/-- The entries of the key's bucket, newest first. -/
def entries (table : Table) (key : Key) : List Entry := (table.bucket key).live

/-- The offset inserted last into the key's bucket. -/
def lookup (table : Table) (key : Key) : Option UInt32 :=
  (table.entries key).head?.map (·.offset)

/-- Adds an entry for the key, over the oldest in its bucket. -/
def insert (table : Table) (key : Key) (offset : UInt32) : Table :=
  { table with
    buckets := ⟨table.buckets.toArray.modify (table.indexOf key) (·.push ⟨offset, key.checksum⟩),
      Array.size_modify.trans table.buckets.size_toArray⟩ }

/-- Files a window; an offset is stored in 32 bits. -/
def record (table : Table) (window : Window) : Table :=
  table.insert window.key window.start.toUInt32

/-- The buckets that have entries, by number, with their entries newest first. -/
def occupied (table : Table) : List (Nat × List Entry) :=
  (table.buckets.toList.zipIdx.map fun (bucket, number) => (number, bucket.live)).filter
    fun (_, entries) => !entries.isEmpty

/-- Files the window that ends at a chunk end, if there is one. -/
def fileChunkEnd (data : Buffer) (length : Nat) (table : Table) (stop : Nat) :
    Except Fault Table :=
  if stop < length then .ok table
  else do return table.record (← Window.endingAt data length stop)

/-- Files the window before each chunk end of a buffer. -/
def fill (table : Table) (data : Buffer) (params : Params) : Except Fault Table := do
  let detector ← Detector.ofParams params
  (detector.chunkEnds data).foldlM (fileChunkEnd data params.minChunk) table

@[simp] theorem indexOf_insert (table : Table) (key other : Key) (offset : UInt32) :
    (table.insert key offset).indexOf other = table.indexOf other := rfl

/-- An insertion writes to the bucket of its key and to no other. -/
theorem bucket_insert (table : Table) (key other : Key) (offset : UInt32) :
    (table.insert key offset).bucket other =
      if table.indexOf key = table.indexOf other then
        (table.bucket other).push ⟨offset, key.checksum⟩
      else table.bucket other := by
  simp only [bucket, insert, Vector.get, Array.getElem_modify]
  rfl

end Table

end LongMatch
