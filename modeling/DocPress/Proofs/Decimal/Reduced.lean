import DocPress.Decimal.Basic
import Mathlib.Algebra.Field.Rat
import Mathlib.Tactic.NormNum
import Mathlib.Tactic.Ring

/-!
# The fewest digits

A decimal number is the same whether zeros stand at the end of its digits or are counted in
its exponent (`value_reduced`).  The form with the fewest digits is known by its last digit,
which is not zero (`reduced_mul_pow`).
-/

namespace DocPress.Decimal

/-- The number of a decimal. -/
def value (d : Decimal) : ℚ :=
  (if d.negative then -1 else 1) * (d.digits * 10 ^ d.exponent)

/-- Dividing zeros out moves them to the exponent. -/
theorem exists_stripZeros (fuel n : Nat) (e : Int) :
    ∃ k : Nat, (stripZeros fuel n e).2 = e + k ∧ n = (stripZeros fuel n e).1 * 10 ^ k := by
  induction fuel generalizing n e with
  | zero => exact ⟨0, by simp [stripZeros]⟩
  | succ fuel ih =>
      rw [stripZeros]
      split
      · next h =>
          simp only [Bool.and_eq_true, bne_iff_ne, beq_iff_eq] at h
          -- one zero goes from the digits to the exponent
          obtain ⟨k, hexponent, hdigits⟩ := ih (n / 10) (e + 1)
          refine ⟨k + 1, by rw [hexponent]; push_cast; ring, ?_⟩
          rw [pow_succ, ← mul_assoc, ← hdigits]
          omega
      · exact ⟨0, by simp⟩

/-- With as much fuel as there are digits, no zero is left at the end. -/
theorem stripZeros_mod_ne_zero {fuel n : Nat} (e : Int) (hn : n ≠ 0) (hfuel : n < 10 ^ fuel) :
    (stripZeros fuel n e).1 % 10 ≠ 0 := by
  induction fuel generalizing n e with
  | zero => omega
  | succ fuel ih =>
      rw [pow_succ] at hfuel
      rw [stripZeros]
      split
      · next h =>
          simp only [Bool.and_eq_true, bne_iff_ne, beq_iff_eq] at h
          exact ih (e + 1) (by omega) (by omega)
      · next h =>
          simp only [Bool.and_eq_true, bne_iff_ne, beq_iff_eq, not_and] at h
          exact h hn

theorem lt_pow_length_ofNat (n : Nat) : n < 10 ^ (Text.ofNat n).length := by
  have hne : (Text.ofNat n).length ≠ 0 := by simp [Text.ofNat]
  exact (Nat.length_toDigits_le_iff (by decide) (Nat.pos_of_ne_zero hne)).1 le_rfl

@[simp] theorem negative_reduced (d : Decimal) : d.reduced.negative = d.negative := by
  rw [reduced]
  split
  · rfl
  · rfl

theorem reduced_of_zero {d : Decimal} (h : d.digits = 0) : d.reduced = ⟨d.negative, 0, 0⟩ := by
  rw [reduced, if_pos h, h]

/-- The form with the fewest digits has the zeros of the digits in its exponent, and no zero
at the end of its digits. -/
theorem exists_reduced {d : Decimal} (h : d.digits ≠ 0) :
    ∃ k : Nat, d.reduced.exponent = d.exponent + k ∧ d.digits = d.reduced.digits * 10 ^ k ∧
      d.reduced.digits % 10 ≠ 0 := by
  obtain ⟨k, hexponent, hdigits⟩ :=
    exists_stripZeros (Text.ofNat d.digits).length d.digits d.exponent
  rw [reduced, if_neg h]
  exact ⟨k, hexponent, hdigits, stripZeros_mod_ne_zero _ h (lt_pow_length_ofNat _)⟩

/-- How a number is cut into digits that do not end with a zero, and zeros. -/
theorem eq_of_mul_pow_eq {n m j k : Nat} (hn : n % 10 ≠ 0) (hm : m % 10 ≠ 0)
    (h : n * 10 ^ k = m * 10 ^ j) : n = m ∧ k = j := by
  induction k generalizing j with
  | zero =>
      cases j with
      | zero => exact ⟨by simpa using h, rfl⟩
      | succ j =>
          rw [pow_zero, mul_one, pow_succ, ← mul_assoc] at h
          omega
  | succ k ih =>
      cases j with
      | zero =>
          rw [pow_zero, mul_one, pow_succ, ← mul_assoc] at h
          omega
      | succ j =>
          rw [pow_succ, pow_succ, ← mul_assoc, ← mul_assoc] at h
          obtain ⟨hdigits, hzeros⟩ := ih (j := j) (by omega)
          exact ⟨hdigits, by rw [hzeros]⟩

/-- Digits that do not end with a zero are the fewest. -/
theorem reduced_mul_pow (negative : Bool) {n : Nat} (hn : n % 10 ≠ 0) (k : Nat) (e : Int) :
    reduced ⟨negative, n * 10 ^ k, e⟩ = ⟨negative, n, e + k⟩ := by
  have hne : n * 10 ^ k ≠ 0 := mul_ne_zero (by omega) (pow_ne_zero k (by decide))
  obtain ⟨j, hexponent, hdigits, hmod⟩ := exists_reduced (d := ⟨negative, n * 10 ^ k, e⟩) hne
  obtain ⟨hn', rfl⟩ := eq_of_mul_pow_eq hn hmod hdigits
  have heq : ∀ r : Decimal, r.negative = negative → r.digits = n → r.exponent = e + k →
      r = ⟨negative, n, e + k⟩ := by
    rintro ⟨_, _, _⟩ rfl rfl rfl
    rfl
  exact heq _ (negative_reduced _) hn'.symm hexponent

/-- The form with the fewest digits is the same number. -/
theorem value_reduced (d : Decimal) : d.reduced.value = d.value := by
  by_cases h : d.digits = 0
  · simp [value, reduced_of_zero h, h]
  · obtain ⟨k, hexponent, hdigits, -⟩ := exists_reduced h
    rw [value, value, negative_reduced, hexponent, hdigits, zpow_add₀ (by norm_num), zpow_natCast]
    push_cast
    ring

end DocPress.Decimal
