import Mathlib.Data.Nat.EvenOddRec
import Settle.Proofs.Number.Order

/-! # Powers keep order

Powers are taken by squaring, and every product is rounded. Two exponents in a row have the same
digits above the place where the larger one carries, and below it the factors of the smaller one
have not passed the next square. So a larger exponent gives no smaller power. -/

namespace Settle.Binary64

variable {acc acc' base : Binary64} {n m : Nat}

/-! ## Digits of the exponent -/

theorem powFrom_zero (acc base : Binary64) : powFrom acc base 0 = acc := by
  rw [powFrom]
  simp

theorem powFrom_two_mul (acc base : Binary64) (n : Nat) :
    powFrom acc base (2 * n) = powFrom acc (base * base) n := by
  have hodd : ¬ 2 * n % 2 = 1 := by omega
  have hhalf : 2 * n / 2 = n := by omega
  rw [powFrom]
  simp only [hodd, if_false, hhalf]
  split
  · next h => rw [h, powFrom_zero]
  · rfl

theorem powFrom_two_mul_add_one (acc base : Binary64) (n : Nat) :
    powFrom acc base (2 * n + 1) = powFrom (acc * base) (base * base) n := by
  have hodd : (2 * n + 1) % 2 = 1 := by omega
  have hhalf : (2 * n + 1) / 2 = n := by omega
  rw [powFrom]
  simp only [hodd, if_true, hhalf]
  split
  · next h => rw [h, powFrom_zero]
  · rfl

theorem pow_zero (base : Binary64) : pow base 0 = 1 := powFrom_zero 1 base

/-! ## Order -/

theorem one_le_powFrom (hacc : 1 ≤ acc) (hbase : 1 ≤ base) : 1 ≤ powFrom acc base n := by
  induction n using Nat.evenOddRec generalizing acc base with
  | h0 => exact (powFrom_zero acc base).symm ▸ hacc
  | h_even n ih =>
      rw [powFrom_two_mul]
      exact ih hacc (one_le_mul hbase hbase)
  | h_odd n ih =>
      rw [powFrom_two_mul_add_one]
      exact ih (one_le_mul hacc hbase) (one_le_mul hbase hbase)

theorem powFrom_mono (hacc : 1 ≤ acc) (hbase : 1 ≤ base) (h : acc ≤ acc') :
    powFrom acc base n ≤ powFrom acc' base n := by
  induction n using Nat.evenOddRec generalizing acc acc' base with
  | h0 => rwa [powFrom_zero, powFrom_zero]
  | h_even n ih =>
      rw [powFrom_two_mul, powFrom_two_mul]
      exact ih hacc (one_le_mul hbase hbase) h
  | h_odd n ih =>
      have hmul : acc * base ≤ acc' * base :=
        Binary64.mul_le_mul (pos_of_one_le hacc) (pos_of_one_le hbase) h (le_self_of_le hbase)
      rw [powFrom_two_mul_add_one, powFrom_two_mul_add_one]
      exact ih (one_le_mul hacc hbase) (one_le_mul hbase hbase) hmul

/-- While the exponent carries, the factors taken so far stay below the next square. Where the
carry ends, that square is taken instead of them. -/
theorem powFrom_le_succ (hacc : 1 ≤ acc) (h : acc ≤ base) :
    powFrom acc base n ≤ powFrom 1 base (n + 1) := by
  induction n using Nat.evenOddRec generalizing acc base with
  | h0 =>
      rw [powFrom_zero, ← Nat.mul_zero 2, powFrom_two_mul_add_one, powFrom_zero,
        Binary64.one_mul]
      exact h
  | h_even n _ =>
      have hbase : 1 ≤ base := Binary64.le_trans hacc h
      rw [powFrom_two_mul, powFrom_two_mul_add_one, Binary64.one_mul]
      exact powFrom_mono hacc (one_le_mul hbase hbase) h
  | h_odd n ih =>
      have hbase : 1 ≤ base := Binary64.le_trans hacc h
      have hmul : acc * base ≤ base * base :=
        Binary64.mul_le_mul (pos_of_one_le hacc) (pos_of_one_le hbase) h (le_self_of_le hbase)
      rw [powFrom_two_mul_add_one, ← Nat.mul_add_one 2 n, powFrom_two_mul]
      exact ih (one_le_mul hacc hbase) hmul

theorem one_le_pow (hbase : 1 ≤ base) : 1 ≤ pow base n :=
  one_le_powFrom Binary64.one_le_one hbase

theorem pow_le_pow (hbase : 1 ≤ base) (h : n ≤ m) : pow base n ≤ pow base m := by
  induction m, h using Nat.le_induction with
  | base => exact le_self_of_le (one_le_pow hbase)
  | succ m _ ih =>
      exact Binary64.le_trans ih (powFrom_le_succ Binary64.one_le_one hbase)

end Settle.Binary64
