import LongMatch.Buffer
/-!
# LongMatch.Index.Key: windows and the hash they are filed under

What is filed at a split is the window of a fixed length that ends there. The key of a window is
its 64-bit FNV-1a hash. The low bits choose the bucket and the high half is stored as a checksum, so
that most strangers in a bucket are told apart without reading the buffer. Two equal windows have
equal keys, so the later one finds the earlier in the table.
-/

namespace LongMatch

/-- The hash a window is filed under. -/
structure Key where
  bits : UInt64
  deriving DecidableEq, Repr

namespace Key

/-- The key of no bytes. -/
def basis : Key := ⟨0xcbf29ce484222325⟩

/-- The key after one more byte. -/
def absorb (key : Key) (byte : UInt8) : Key :=
  ⟨(key.bits ^^^ byte.toUInt64) * 0x100000001b3⟩

/-- The key of a window. -/
def ofWindow (window : Buffer) : Key := window.foldl absorb basis

/-- The half of the key that is stored with an entry. -/
def checksum (key : Key) : UInt32 := (key.bits >>> 32).toUInt32

/-- The number of the key's bucket among 2 to the power `bucketLog`. -/
def bucketIndex (key : Key) (bucketLog : Nat) : Nat := key.bits.toNat % 2 ^ bucketLog

theorem bucketIndex_lt (key : Key) (bucketLog : Nat) : key.bucketIndex bucketLog < 2 ^ bucketLog :=
  Nat.mod_lt _ (Nat.two_pow_pos _)

end Key

/-- Where a window starts, and the key of its bytes. -/
structure Window where
  start : Nat
  key : Key
  deriving DecidableEq, Repr

/-- The window of `length` bytes that ends at `stop`. -/
def Window.endingAt (data : Buffer) (length stop : Nat) : Except Fault Window := do
  let start ← Checked.sub stop length
  return ⟨start, .ofWindow (← data.slice start stop)⟩

theorem Window.endingAt_of_le {data : Buffer} {length stop : Nat} (low : length ≤ stop)
    (high : stop ≤ data.size) :
    Window.endingAt data length stop =
      .ok ⟨stop - length, .ofWindow (data.extract (stop - length) stop)⟩ := by
  have fits : stop - length ≤ stop ∧ stop ≤ data.size := ⟨Nat.sub_le .., high⟩
  simp [Window.endingAt, Buffer.slice, low, fits]

end LongMatch
