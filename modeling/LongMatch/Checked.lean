/-!
# LongMatch.Checked: arithmetic on 64-bit sizes that says when it has no answer

Sizes and positions are natural numbers. An operation that a 64-bit machine word could not
carry out is a `Fault`, a value like any other, so that "this never goes wrong" is a statement
about the result. Each operation succeeds exactly when its exact value is in range, and then
gives that value: the `_eq_ok_iff` lemmas.
-/

namespace LongMatch

/-- Why an operation has no result. -/
inductive Fault where
  /-- The exact value needs more than 64 bits. -/
  | overflow
  /-- The exact value is negative. -/
  | underflow
  /-- A shift by 64 places or more. -/
  | wideShift
  /-- A read outside a buffer. -/
  | outOfBounds
  /-- A run whose source does not start before its destination. -/
  | unordered
  /-- A table that no address space holds. -/
  | tableTooLarge
  deriving DecidableEq, Repr

-- Powers of sizes are the built-in ones, also next to a library that has powers of its own.
attribute [scoped instance (2000)] instPowNat

namespace Checked

/-- One more than the largest size. -/
def sizeBound : Nat := 2 ^ (64 : Nat)

/-- The sum of two sizes. -/
def add (a b : Nat) : Except Fault Nat :=
  if a + b < sizeBound then .ok (a + b) else .error .overflow

/-- The difference of two sizes. -/
def sub (a b : Nat) : Except Fault Nat :=
  if b ≤ a then .ok (a - b) else .error .underflow

/-- The product of two sizes. -/
def mul (a b : Nat) : Except Fault Nat :=
  if a * b < sizeBound then .ok (a * b) else .error .overflow

/-- The number with the single bit `k` set. -/
def pow2 (k : Nat) : Except Fault Nat :=
  if k < 64 then .ok (2 ^ k) else .error .wideShift

theorem add_eq_ok_iff {a b c : Nat} : add a b = .ok c ↔ a + b < sizeBound ∧ a + b = c := by
  by_cases h : a + b < sizeBound <;> simp [add, h]

theorem sub_eq_ok_iff {a b c : Nat} : sub a b = .ok c ↔ b ≤ a ∧ a - b = c := by
  by_cases h : b ≤ a <;> simp [sub, h]

theorem pow2_eq_ok_iff {k c : Nat} : pow2 k = .ok c ↔ k < 64 ∧ 2 ^ k = c := by
  by_cases h : k < 64 <;> simp [pow2, h]

/-! ## Chains of checked operations -/

variable {α β : Type}

@[simp] theorem ok_bind (a : α) (f : α → Except Fault β) : (.ok a >>= f) = f a := rfl

@[simp] theorem error_bind (fault : Fault) (f : α → Except Fault β) :
    (.error fault >>= f) = .error fault := rfl

@[simp] theorem pure_eq_ok (a : α) : (pure a : Except Fault α) = .ok a := rfl

/-- A chain has a result exactly when its first part has one and the rest has one from there. -/
theorem bind_eq_ok_iff {x : Except Fault α} {f : α → Except Fault β} {b : β} :
    (x >>= f) = .ok b ↔ ∃ a, x = .ok a ∧ f a = .ok b := by
  cases x <;> simp

/-- A chain fails where its first part does, or in the rest. -/
theorem bind_eq_error_iff {x : Except Fault α} {f : α → Except Fault β} {fault : Fault} :
    (x >>= f) = .error fault ↔ x = .error fault ∨ ∃ a, x = .ok a ∧ f a = .error fault := by
  cases x <;> simp

/-! ## Operations in range -/

@[simp] theorem sub_of_le {a b : Nat} (h : b ≤ a) : sub a b = .ok (a - b) :=
  sub_eq_ok_iff.mpr ⟨h, rfl⟩

@[simp] theorem pow2_of_lt {k : Nat} (h : k < 64) : pow2 k = .ok (2 ^ k) :=
  pow2_eq_ok_iff.mpr ⟨h, rfl⟩

end Checked

end LongMatch
