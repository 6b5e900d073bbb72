import Mathlib.Data.Nat.Bitwise
import Mathlib.Data.Nat.ModEq
import LongMatch.Proofs.Index.Log
/-!
# LongMatch.Proofs.Index.NearMiss: a window with one byte changed goes to another bucket

The multiplier of a key is odd, so modulo a power of two absorbing a byte can be undone: the low
bits of a key after a byte are equal exactly if they were equal before it, and for one key exactly
if the low bits of the bytes are (`bucketIndex_absorb_same_byte`, `bucketIndex_absorb_same_key`). By
induction over the bytes that follow, windows that differ in one byte share a bucket exactly if the
two bytes agree in as many low bits as there are bits to choose it: `bucketIndex_ofWindow_iff`. From
256 buckets on these are all bits of a byte, which gives `near_miss_is_never_found`.
-/

namespace LongMatch

namespace Key

variable {k : Nat} {u v : Buffer} {x y : UInt8}

/-! ## The low bits of a key -/

/-- What a key is multiplied by after each byte. -/
def multiplier : Nat := 0x100000001b3

theorem coprime_multiplier (k : Nat) : Nat.gcd (2 ^ k) multiplier = 1 :=
  Nat.Coprime.pow_left k (by decide : Nat.Coprime 2 multiplier)

/-- Numbers agree modulo a power of two exactly if their products with the multiplier do. -/
theorem mul_multiplier_mod_iff {a b : Nat} :
    a * multiplier % 2 ^ k = b * multiplier % 2 ^ k ↔ a % 2 ^ k = b % 2 ^ k :=
  ⟨fun h => Nat.ModEq.cancel_right_of_coprime (coprime_multiplier k) h,
    fun h => Nat.ModEq.mul_right multiplier h⟩

theorem toNat_absorb (key : Key) (byte : UInt8) :
    (key.absorb byte).bits.toNat =
      (key.bits.toNat ^^^ byte.toNat) * multiplier % 2 ^ (64 : Nat) := by
  simp only [absorb, UInt64.toNat_mul, UInt64.toNat_xor, UInt8.toNat_toUInt64]
  rfl

/-- The low bits of a key after a byte depend on those of the key and the byte. -/
theorem bucketIndex_absorb_iff (hword : k ≤ 64) (a b : Key) :
    (a.absorb x).bucketIndex k = (b.absorb y).bucketIndex k ↔
      a.bucketIndex k ^^^ x.toNat % 2 ^ k = b.bucketIndex k ^^^ y.toNat % 2 ^ k := by
  simp only [bucketIndex, toNat_absorb, Nat.mod_mod_of_dvd _ (Nat.pow_dvd_pow 2 hword),
    mul_multiplier_mod_iff, Nat.xor_mod_two_pow]

theorem bucketIndex_absorb_same_byte (hword : k ≤ 64) (a b : Key) :
    (a.absorb x).bucketIndex k = (b.absorb x).bucketIndex k ↔
      a.bucketIndex k = b.bucketIndex k :=
  (bucketIndex_absorb_iff hword a b).trans Nat.xor_left_inj

theorem bucketIndex_absorb_same_key (hword : k ≤ 64) (key : Key) :
    (key.absorb x).bucketIndex k = (key.absorb y).bucketIndex k ↔
      x.toNat % 2 ^ k = y.toNat % 2 ^ k :=
  (bucketIndex_absorb_iff hword key key).trans Nat.xor_right_inj

/-- Bytes that follow neither bring the low bits of two keys together nor apart. -/
theorem bucketIndex_foldl_absorb_iff (hword : k ≤ 64) (a b : Key) (bytes : List UInt8) :
    (bytes.foldl absorb a).bucketIndex k = (bytes.foldl absorb b).bucketIndex k ↔
      a.bucketIndex k = b.bucketIndex k := by
  induction bytes generalizing a b with
  | nil => rfl
  | cons byte bytes ih =>
    rw [List.foldl_cons, List.foldl_cons, ih, bucketIndex_absorb_same_byte hword]

/-! ## Windows that differ in one byte -/

theorem ofWindow_eq_foldl (u v : Buffer) (x : UInt8) :
    ofWindow (u ++ #[x] ++ v) = v.toList.foldl absorb ((ofWindow u).absorb x) := by
  simp [ofWindow]

/-- A key has no more than 64 bits to choose a bucket. -/
theorem bucketIndex_min (key : Key) (k : Nat) :
    key.bucketIndex (min k 64) = key.bucketIndex k := by
  rcases Nat.le_total k 64 with hle | hge
  · rw [Nat.min_eq_left hle]
  · have hlt := key.bits.toNat_lt
    have hpow : 2 ^ (64 : Nat) ≤ 2 ^ k := Nat.pow_le_pow_right (by decide) hge
    rw [Nat.min_eq_right hge, bucketIndex, bucketIndex, Nat.mod_eq_of_lt hlt,
      Nat.mod_eq_of_lt (Nat.lt_of_lt_of_le hlt hpow)]

/-- A byte has no more than eight bits. -/
theorem byte_mod_of_le (x : UInt8) (hbyte : 8 ≤ k) : x.toNat % 2 ^ k = x.toNat := by
  have hlt := x.toNat_lt
  have hpow : 2 ^ (8 : Nat) ≤ 2 ^ k := Nat.pow_le_pow_right (by decide) hbyte
  exact Nat.mod_eq_of_lt (Nat.lt_of_lt_of_le hlt hpow)

theorem bucketIndex_ofWindow_iff :
    (ofWindow (u ++ #[x] ++ v)).bucketIndex k = (ofWindow (u ++ #[y] ++ v)).bucketIndex k ↔
      x.toNat % 2 ^ k = y.toNat % 2 ^ k := by
  have hbits : ∀ byte : UInt8, byte.toNat % 2 ^ min k 64 = byte.toNat % 2 ^ k := by
    intro byte
    rcases Nat.le_total k 64 with hle | hge
    · rw [Nat.min_eq_left hle]
    · rw [Nat.min_eq_right hge, byte_mod_of_le byte (by decide), byte_mod_of_le byte (by omega)]
  rw [← bucketIndex_min _ k, ← bucketIndex_min _ k, ofWindow_eq_foldl, ofWindow_eq_foldl,
    bucketIndex_foldl_absorb_iff (Nat.min_le_right k 64),
    bucketIndex_absorb_same_key (Nat.min_le_right k 64), hbits, hbits]

/-- Among 256 buckets or more a byte makes a difference. -/
theorem bucketIndex_ofWindow_ne (hne : x ≠ y) (hbyte : 8 ≤ k) :
    (ofWindow (u ++ #[x] ++ v)).bucketIndex k ≠ (ofWindow (u ++ #[y] ++ v)).bucketIndex k := by
  rw [Ne, bucketIndex_ofWindow_iff, byte_mod_of_le x hbyte, byte_mod_of_le y hbyte]
  exact fun h => hne (UInt8.toNat_inj.mp h)

end Key

/-! ## Tables -/

namespace Table

open Operation (logOf)

/-- Insertions under a key of another bucket do not count. -/
theorem latest_filter_ne {params : Params} {key other : Key}
    (hbits : lowBits params key ≠ lowBits params other) (log : List Insertion) :
    latest params (log.filter fun insertion => insertion.key ≠ key) other =
      latest params log other := by
  have hsame : (log.filter fun insertion => insertion.key ≠ key).filter
      (fun insertion => lowBits params insertion.key = lowBits params other) =
        log.filter fun insertion => lowBits params insertion.key = lowBits params other := by
    rw [List.filter_filter]
    apply List.filter_congr
    intro insertion _
    by_cases hkey : insertion.key = key
    · simp [hkey, hbits]
    · simp [hkey]
  rw [latest, latest, hsame]

theorem keeps_of_performAll {params : Params} {fresh table : Table} {operations : List Operation}
    (hfresh : ofParams params = .ok fresh) (hperform : fresh.performAll operations = .ok table) :
    table.Keeps params (logOf operations) := by
  rw [eq_empty_of_ofParams hfresh] at hperform
  rcases performAll_cases (params.hashLog - bucketSizeLogOf params) (bucketSizeLogOf params) []
    operations with ⟨_, _, _, _, hfault⟩ | hok
  · cases hperform.symm.trans hfault
  · obtain rfl := Except.ok.inj (hperform.symm.trans hok)
    exact keeps_insertAll params _

/-- **A near miss is never found.** Windows that differ in one byte go to the same of `2 ^ k`
buckets exactly if the two bytes agree in their `k` low bits, so they never have the same key. In a
table of 256 buckets or more, filing the one does not touch the bucket of the other, and whatever
else was done to the table before, what is found for the other is what would be found if the one had
never been inserted. -/
theorem near_miss_is_never_found (u v : Buffer) {x y : UInt8} (hne : x ≠ y) :
    (∀ table : Table,
      table.indexOf (.ofWindow (u ++ #[x] ++ v)) = table.indexOf (.ofWindow (u ++ #[y] ++ v)) ↔
        x.toNat % 2 ^ table.bucketLog = y.toNat % 2 ^ table.bucketLog) ∧
      Key.ofWindow (u ++ #[x] ++ v) ≠ .ofWindow (u ++ #[y] ++ v) ∧
      (∀ table : Table, 256 ≤ 2 ^ table.bucketLog → ∀ offset,
        (table.insert (.ofWindow (u ++ #[x] ++ v)) offset).bucket (.ofWindow (u ++ #[y] ++ v)) =
          table.bucket (.ofWindow (u ++ #[y] ++ v))) ∧
      ∀ params fresh operations table, ofParams params = .ok fresh →
        fresh.performAll operations = .ok table →
        256 ≤ 2 ^ fresh.bucketLog →
          table.entries (.ofWindow (u ++ #[y] ++ v)) =
            latest params ((logOf operations).filter
                fun insertion => insertion.key ≠ .ofWindow (u ++ #[x] ++ v))
              (.ofWindow (u ++ #[y] ++ v)) := by
  have hbyte : ∀ {k : Nat}, 256 ≤ 2 ^ k → 8 ≤ k := fun hbuckets =>
    (Nat.pow_le_pow_iff_right (by decide : 1 < 2)).mp (show 2 ^ (8 : Nat) ≤ 2 ^ _ from hbuckets)
  refine ⟨fun table => Key.bucketIndex_ofWindow_iff, ?_, ?_, ?_⟩
  · intro hkey
    exact Key.bucketIndex_ofWindow_ne hne (Nat.le_refl 8) (congrArg (Key.bucketIndex · 8) hkey)
  · intro table hbuckets offset
    exact bucket_insert_of_ne offset (Key.bucketIndex_ofWindow_ne hne (hbyte hbuckets))
  · intro params fresh operations table hfresh hperform hbuckets
    rw [(keeps_of_performAll hfresh hperform).entries_eq]
    rw [eq_empty_of_ofParams hfresh] at hbuckets
    exact (latest_filter_ne (Key.bucketIndex_ofWindow_ne hne (hbyte hbuckets)) _).symm

/-! ### Bytes that differ in one bit

The windows share one of 16 buckets and none of 32. In a table of 256 buckets the one that was
inserted is found and the other is not. -/

def nearParams : Params := ⟨10, 8, 6, 0, 0⟩

def nearWindow (byte : UInt8) : Buffer := #[1, 2, 3] ++ #[byte] ++ #[5, 6]

theorem one_bit_leads_elsewhere :
    (4 : UInt8) ≠ 20 ∧
      (empty 4 0).indexOf (.ofWindow (nearWindow 4)) =
        (empty 4 0).indexOf (.ofWindow (nearWindow 20)) ∧
      (empty 5 0).indexOf (.ofWindow (nearWindow 4)) ≠
        (empty 5 0).indexOf (.ofWindow (nearWindow 20)) ∧
      ∃ fresh table, ofParams nearParams = .ok fresh ∧ 256 ≤ 2 ^ fresh.bucketLog ∧
        fresh.performAll [.insert (.ofWindow (nearWindow 4)) 7] = .ok table ∧
          (table.entries (.ofWindow (nearWindow 4))).map Entry.offset = [7] ∧
            table.entries (.ofWindow (nearWindow 20)) = [] := by
  have hne : (4 : UInt8) ≠ 20 := by decide
  obtain ⟨hshare, _, _, hfound⟩ := near_miss_is_never_found #[1, 2, 3] #[5, 6] hne
  have hfresh : ofParams nearParams = .ok (empty 8 0) := rfl
  have hperform : (empty 8 0).performAll [.insert (.ofWindow (nearWindow 4)) 7] =
      .ok ((empty 8 0).insert (.ofWindow (nearWindow 4)) 7) := rfl
  refine ⟨hne, (hshare (empty 4 0)).mpr (by decide), ?_, _, _, hfresh, by decide, hperform, ?_, ?_⟩
  · intro hsame
    exact absurd ((hshare (empty 5 0)).mp hsame) (by decide)
  · decide +kernel
  · -- without the one insertion that there was, the log is empty
    refine (hfound nearParams _ _ _ hfresh hperform (by decide)).trans ?_
    simp [latest, logOf, Operation.extend, nearWindow]

end Table

end LongMatch
