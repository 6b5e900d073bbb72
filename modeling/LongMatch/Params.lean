import LongMatch.Checked
import LongMatch.Error
/-!
# LongMatch.Params: the settings of a scan

The settings are five numbers. A zero in any of them but the window means "derive it", which
`Params.adjust` does; a scan only validates its settings and never adjusts them. `validate` names
the first setting that is out of range, in the order window, table, bucket, rate, length. The
sizes that follow from the settings are checked, because settings need not be valid.
-/

namespace LongMatch

/-- The settings of a scan. -/
structure Params where
  /-- The largest distance of a match is 2 to this power. -/
  windowLog : Nat
  /-- The table has 2 to this power entries. -/
  hashLog : Nat
  /-- The shortest match, and the shortest chunk. -/
  minMatchLength : Nat
  /-- Chunks are expected to be 2 to this power bytes long. -/
  hashRateLog : Nat
  /-- A bucket of the table has 2 to this power entries. -/
  bucketSizeLog : Nat
  deriving DecidableEq, Repr

namespace Params

/-! ## Limits and defaults -/

/-- The smallest window. -/
def windowLogLeast : Nat := 10

/-- The largest window. -/
def windowLogGreatest : Nat := 31

/-- The smallest table. -/
def hashLogLeast : Nat := 6

/-- The largest table. -/
def hashLogGreatest : Nat := 30

/-- The largest bucket, in a table that is not smaller. -/
def bucketSizeLogGreatest : Nat := 8

/-- The rarest splits: the largest window with the smallest table. -/
def hashRateLogGreatest : Nat := windowLogGreatest - hashLogLeast

/-- The lowest bound on the length of a match. -/
def minMatchLengthLeast : Nat := 4

/-- The highest bound on the length of a match. -/
def minMatchLengthGreatest : Nat := 4096

/-- The window of a scan that asks for none. -/
def defaultWindowLog : Nat := 27

/-- The bucket size that stands in for a zero. -/
def defaultBucketSizeLog : Nat := 3

/-- The bound on the length of a match that stands in for a zero. -/
def defaultMinMatchLength : Nat := 64

/-- A derived table has one entry for 2 to this power bytes of the window. -/
def defaultHashRateLog : Nat := 7

/-- The greatest chunk is 2 to this power times as long as the expected one. -/
def greatestChunkLog : Nat := 3

/-! ## Deriving settings -/

/-- Fills every zero with the value derived from the window; the rate is derived from the table
size in force, and a bucket is never larger than the table. -/
def adjust (params : Params) : Params :=
  let bucketSizeLog :=
    if params.bucketSizeLog = 0 then defaultBucketSizeLog else params.bucketSizeLog
  let minMatchLength :=
    if params.minMatchLength = 0 then defaultMinMatchLength else params.minMatchLength
  let hashLog :=
    if params.hashLog = 0 then max hashLogLeast (params.windowLog - defaultHashRateLog)
    else params.hashLog
  let hashRateLog :=
    if params.hashRateLog = 0 then params.windowLog - hashLog else params.hashRateLog
  { params with
    hashLog, minMatchLength, hashRateLog, bucketSizeLog := min bucketSizeLog hashLog }

/-- The settings derived from a window alone. -/
def forWindowLog (windowLog : Nat) : Params :=
  adjust ⟨windowLog, 0, 0, 0, 0⟩

/-- The settings of a scan that asks for none. -/
def standard : Params := forWindowLog defaultWindowLog

/-! ## Validation -/

/-- The largest bucket for the table size in force. -/
def bucketSizeLogLimit (params : Params) : Nat := min bucketSizeLogGreatest params.hashLog

/-- Whether every setting is in range; the error names the first that is not. -/
def validate (params : Params) : Except Error Unit :=
  if ¬(windowLogLeast ≤ params.windowLog ∧ params.windowLog ≤ windowLogGreatest) then
    .error (.windowLogOutOfRange params.windowLog windowLogLeast windowLogGreatest)
  else if ¬(hashLogLeast ≤ params.hashLog ∧ params.hashLog ≤ hashLogGreatest) then
    .error (.hashLogOutOfRange params.hashLog hashLogLeast hashLogGreatest)
  else if ¬params.bucketSizeLog ≤ params.bucketSizeLogLimit then
    .error (.bucketSizeLogOutOfRange params.bucketSizeLog params.bucketSizeLogLimit)
  else if ¬params.hashRateLog ≤ hashRateLogGreatest then
    .error (.hashRateLogOutOfRange params.hashRateLog hashRateLogGreatest)
  else if ¬(minMatchLengthLeast ≤ params.minMatchLength ∧
      params.minMatchLength ≤ minMatchLengthGreatest) then
    .error (.minMatchLengthOutOfRange params.minMatchLength minMatchLengthLeast
      minMatchLengthGreatest)
  else .ok ()

/-- Every setting is in range. -/
structure Valid (params : Params) : Prop where
  windowLog : windowLogLeast ≤ params.windowLog ∧ params.windowLog ≤ windowLogGreatest
  hashLog : hashLogLeast ≤ params.hashLog ∧ params.hashLog ≤ hashLogGreatest
  bucketSizeLog : params.bucketSizeLog ≤ params.bucketSizeLogLimit
  hashRateLog : params.hashRateLog ≤ hashRateLogGreatest
  minMatchLength :
    minMatchLengthLeast ≤ params.minMatchLength ∧ params.minMatchLength ≤ minMatchLengthGreatest

theorem validate_eq_ok_iff {params : Params} : params.validate = .ok () ↔ params.Valid := by
  unfold validate
  constructor
  · -- each check in turn has passed
    intro h
    split at h
    · cases h
    split at h
    · cases h
    split at h
    · cases h
    split at h
    · cases h
    split at h
    · cases h
    next hwindow hhash hbucket hrate hlength =>
    exact ⟨Decidable.not_not.mp hwindow, Decidable.not_not.mp hhash, Decidable.not_not.mp hbucket,
      Decidable.not_not.mp hrate, Decidable.not_not.mp hlength⟩
  · rintro ⟨hwindow, hhash, hbucket, hrate, hlength⟩
    rw [if_neg (not_not_intro hwindow), if_neg (not_not_intro hhash),
      if_neg (not_not_intro hbucket), if_neg (not_not_intro hrate), if_neg (not_not_intro hlength)]

/-! ## Sizes that follow from the settings -/

/-- The largest distance of a match. -/
def maxDistance (params : Params) : Except Fault Nat := Checked.pow2 params.windowLog

/-- The bits of the rolling hash that are all zero at a natural split. -/
def stopMask (params : Params) : Except Fault UInt64 := do
  return ((← Checked.pow2 params.hashRateLog) - 1).toUInt64

/-- The length of the shortest chunk. -/
def minChunk (params : Params) : Nat := params.minMatchLength

/-- The length at which a chunk ends whatever the hash says; never below two shortest chunks. -/
def maxChunk (params : Params) : Except Fault Nat := do
  return max (← Checked.pow2 (params.hashRateLog + greatestChunkLog)) (2 * params.minChunk)

/-- An upper bound on the matches in a scan of `size` bytes. -/
def maxSequences (params : Params) (size : Nat) : Nat := size / max 1 params.minMatchLength

/-- The bytes that one entry of the table takes. -/
def entryBytes : Nat := 8

/-- The bytes that the table for these settings takes: its entries and a byte for each bucket. -/
def tableBytes (params : Params) : Except Fault Nat := do
  let entries ← Checked.pow2 params.hashLog
  let buckets ← Checked.pow2 (params.hashLog - min params.bucketSizeLog params.hashLog)
  Checked.add (← Checked.mul entries entryBytes) buckets

end Params

end LongMatch
