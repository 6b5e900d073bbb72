import Mathlib.Algebra.BigOperators.Fin
import LongMatch.Gear
/-!
# LongMatch.Proofs.Gear.Horizon: what a rolling hash remembers

Feeding a buffer to a hash doubles the hash once a byte and adds the constants of the bytes, each
doubled once for every byte after it, modulo 2^64: `toNat_feed_eq_sum`. From the zero hash only the
sum is left, so a buffer fed to any hash adds the hash of the buffer on its own: `toNat_feed`.
Modulo 2^k the first part is gone after `k` bytes, so the low `k` bits depend on the last `k` bytes
only, whatever was fed before (`low_feed`), and the whole hash on the last 64 (`feed_eq_calculate`).
-/

namespace LongMatch.GearHash

/-! ## The hash as a sum -/

/-- One byte doubles the hash and adds the constant of the byte. -/
theorem toNat_advance (hash : GearHash) (byte : UInt8) :
    (hash.advance byte).value.toNat =
      (2 * hash.value.toNat + (Gear.constant byte).toNat) % 2 ^ (64 : Nat) := by
  have hdouble : (hash.value <<< 1).toNat = 2 * hash.value.toNat % 2 ^ (64 : Nat) := by
    rw [UInt64.toNat_shiftLeft, Nat.shiftLeft_eq, Nat.mul_comm]
    rfl
  simp only [advance, UInt64.toNat_add, hdouble, Nat.mod_add_mod]

/-- The constants of the bytes, each doubled once for every byte after it. -/
def positionalSum (data : Buffer) : Nat :=
  ∑ i : Fin data.size, (Gear.constant data[i]).toNat * 2 ^ (data.size - 1 - i)

theorem positionalSum_push (data : Buffer) (byte : UInt8) :
    positionalSum (data.push byte) = 2 * positionalSum data + (Gear.constant byte).toNat := by
  have hsize : data.size + 1 = (data.push byte).size := (Array.size_push byte).symm
  rw [positionalSum, ← (finCongr hsize).sum_comp, Fin.sum_univ_castSucc, positionalSum,
    Finset.mul_sum]
  congr 1
  · apply Finset.sum_congr rfl
    intro i _
    -- one more byte stands after each byte of the front
    have hdouble : 2 ^ (data.size - i) = 2 * 2 ^ (data.size - 1 - i) := by
      rw [← Nat.pow_succ']
      congr 1
      omega
    simp [Array.getElem_push_lt, hdouble, Nat.mul_left_comm]
  · simp

/-- What was fed before is shifted up by a place for each byte of the buffer. -/
theorem toNat_feed_eq_sum (hash : GearHash) (data : Buffer) :
    (hash.feed data).value.toNat =
      (hash.value.toNat * 2 ^ data.size + positionalSum data) % 2 ^ (64 : Nat) := by
  induction hsize : data.size generalizing data with
  | zero =>
    rw [Array.eq_empty_of_size_eq_zero hsize]
    have hlt := hash.value.toNat_lt
    show hash.value.toNat = (hash.value.toNat * 1 + 0) % 2 ^ (64 : Nat)
    omega
  | succ n ih =>
    obtain ⟨front, byte, rfl⟩ := Array.eq_push_of_size_ne_zero (show data.size ≠ 0 by omega)
    have hfront := ih front (by simpa using hsize)
    have hdouble : hash.value.toNat * 2 ^ (n + 1) = 2 * (hash.value.toNat * 2 ^ n) := by
      rw [Nat.pow_succ, ← Nat.mul_assoc, Nat.mul_comm]
    -- hash and sum both double and take in the same constant
    rw [feed_push, toNat_advance, hfront, positionalSum_push, hdouble]
    omega

theorem toNat_calculate (data : Buffer) :
    (calculate data).value.toNat = positionalSum data % 2 ^ (64 : Nat) := by
  rw [calculate, toNat_feed_eq_sum]
  show (0 * 2 ^ data.size + positionalSum data) % 2 ^ (64 : Nat) =
    positionalSum data % 2 ^ (64 : Nat)
  rw [Nat.zero_mul, Nat.zero_add]

/-- Feeding a buffer shifts the hash up and adds the hash of the buffer on its own. -/
theorem toNat_feed (hash : GearHash) (data : Buffer) :
    (hash.feed data).value.toNat =
      (hash.value.toNat * 2 ^ data.size + (calculate data).value.toNat) % 2 ^ (64 : Nat) := by
  rw [toNat_feed_eq_sum, toNat_calculate, Nat.add_mod_mod]

/-! ## The horizon -/

/-- The low bits depend on that many of the last bytes. -/
theorem low_feed (hash : GearHash) {data : Buffer} {k : Nat} (hword : k ≤ 64)
    (hlong : k ≤ data.size) :
    (hash.feed data).value.toNat % 2 ^ k = (calculate data).value.toNat % 2 ^ k := by
  have hshift : hash.value.toNat * 2 ^ data.size =
      2 ^ k * (hash.value.toNat * 2 ^ (data.size - k)) := by
    rw [Nat.mul_left_comm, ← Nat.pow_add, Nat.add_sub_cancel' hlong]
  rw [toNat_feed, Nat.mod_mod_of_dvd _ (Nat.pow_dvd_pow 2 hword), hshift, Nat.mul_add_mod]

/-- After as many bytes as the hash has bits, nothing is left of what was fed before. -/
theorem feed_eq_calculate (hash : GearHash) {data : Buffer} (hlong : 64 ≤ data.size) :
    hash.feed data = calculate data := by
  have hlow := hash.low_feed (Nat.le_refl 64) hlong
  rw [Nat.mod_eq_of_lt (UInt64.toNat_lt _), Nat.mod_eq_of_lt (UInt64.toNat_lt _)] at hlow
  exact congrArg mk (UInt64.toNat_inj.mp hlow)

/-- **The hash is a positional sum with a sliding horizon.** The constant of a byte is doubled by
every byte after it, modulo 2^64, so the hash of two buffers put together is the sum of their
hashes, the first shifted up by the length of the second. Two hashes that are fed buffers with a
common back of `k` bytes agree in their `k` low bits, whatever they were and whatever came before
the back, and with a common back of 64 bytes they are equal. -/
theorem hash_is_positional_sum :
    (∀ data : Buffer, (calculate data).value.toNat = positionalSum data % 2 ^ (64 : Nat)) ∧
      (∀ a b : Buffer, (calculate (a ++ b)).value.toNat =
        ((calculate a).value.toNat * 2 ^ b.size + (calculate b).value.toNat) % 2 ^ (64 : Nat)) ∧
      ∀ (hash other : GearHash) (front front' back : Buffer),
        (∀ k, k ≤ 64 → k ≤ back.size →
          (hash.feed (front ++ back)).value.toNat % 2 ^ k =
            (other.feed (front' ++ back)).value.toNat % 2 ^ k) ∧
        (64 ≤ back.size → hash.feed (front ++ back) = other.feed (front' ++ back)) := by
  refine ⟨toNat_calculate, ?_, ?_⟩
  · intro a b
    rw [calculate, feed_append, toNat_feed, ← calculate]
  · intro hash other front front' back
    constructor
    · intro k hword hlong
      rw [feed_append, feed_append, low_feed _ hword hlong, low_feed _ hword hlong]
    · intro hlong
      rw [feed_append, feed_append, feed_eq_calculate _ hlong, feed_eq_calculate _ hlong]

/-! ### Eight common bytes, and sixty-four

Eight common bytes settle eight bits and not a ninth. Sixty-four settle the hash, sixty-three do
not. -/

def oddHash : GearHash := ⟨1⟩

def quietFront : Buffer := .replicate 100 0

def busyFront : Buffer := .replicate 37 5

def shortBack : Buffer := #[9, 8, 7, 6, 5, 4, 3, 2]

def longBack : Buffer := .replicate 64 7

theorem common_bytes_settle_low_bits :
    8 ≤ 64 ∧ 8 ≤ shortBack.size ∧
      (zero.feed (quietFront ++ shortBack)).value.toNat % 2 ^ (8 : Nat) =
        (oddHash.feed (busyFront ++ shortBack)).value.toNat % 2 ^ (8 : Nat) ∧
      (zero.feed (quietFront ++ shortBack)).value.toNat % 2 ^ (9 : Nat) ≠
        (oddHash.feed (busyFront ++ shortBack)).value.toNat % 2 ^ (9 : Nat) ∧
      64 ≤ longBack.size ∧
      zero.feed (quietFront ++ longBack) = oddHash.feed (busyFront ++ longBack) ∧
      zero.feed longBack.pop ≠ oddHash.feed longBack.pop := by
  obtain ⟨_, _, hhorizon⟩ := hash_is_positional_sum
  have hword : 8 ≤ 64 := by decide
  have hshort : 8 ≤ shortBack.size := by decide
  have hlong : 64 ≤ longBack.size := by decide
  obtain ⟨hlow, _⟩ := hhorizon zero oddHash quietFront busyFront shortBack
  obtain ⟨_, hwhole⟩ := hhorizon zero oddHash quietFront busyFront longBack
  exact ⟨hword, hshort, hlow 8 hword hshort, by decide +kernel, hlong, hwhole hlong,
    by decide +kernel⟩

end LongMatch.GearHash
