import Settle.Proofs.Number.Order

/-! # Counting down in doubles

Rounded sums keep order. Whole numbers up to `2 ^ 53` are counted down exactly. Beyond that doubles
lie two apart, so that one less is rounded, and from `2 ^ 53 + 4` on it is rounded back up: nothing
is ever counted down from there. -/

namespace Settle.Binary64

variable {negative negative' : Bool} {u v n : Nat} {hu : Representable u} {hv : Representable v}
  {a b c x : Binary64} {y z : Int}

/-! ## Opposites -/

theorem le_self_of_ge (h : a ≤ x) : a ≤ a := by
  cases a with
  | nan => cases h
  | infinite => exact infinite_le_infinite
  | finite => exact finite_le_finite.mpr (Int.le_refl _)

theorem signed_not (negative : Bool) (u : Nat) : signed (!negative) u = -signed negative u := by
  cases negative <;> simp

protected theorem neg_le_neg (h : a ≤ b) : -b ≤ -a := by
  cases a with
  | nan => cases h
  | infinite s =>
      cases s with
      | false =>
          rw [eq_infinite_of_le h]
          exact infinite_le_infinite
      | true =>
          cases b with
          | nan => cases h
          | infinite t => cases t <;> rfl
          | finite => rfl
  | finite s u hu =>
      cases b with
      | nan => cases h
      | infinite t =>
          cases t with
          | false => rfl
          | true => cases h
      | finite t v hv =>
          change finite (!t) v hv ≤ finite (!s) u hu
          rw [finite_le_finite] at h ⊢
          rw [signed_not, signed_not]
          exact Int.neg_le_neg h

/-! ## Finite numbers -/

theorem not_infinite_lt : ¬ infinite false < x := by
  cases x <;> exact Bool.false_ne_true

theorem isFinite_of_lt (h0 : 0 < a) (h : a < x) : a.isFinite := by
  rcases pos_cases h0 with rfl | ⟨u, hu, rfl, -⟩
  · exact absurd h not_infinite_lt
  · rfl

/-! ## Sums -/

theorem zero_eq_finite (negative : Bool) :
    zero negative = finite negative 0 representable_zero := by
  rw [zero, ← ofQuotient_mul representable_zero Nat.one_pos, Nat.zero_mul]

theorem signed_zero_le (negative negative' : Bool) : zero negative ≤ zero negative' := by
  rw [zero_eq_finite, zero_eq_finite, finite_le_finite]
  cases negative <;> cases negative' <;> decide

/-- The double nearest to a signed number of units. -/
def ofUnits (z : Int) : Binary64 := ofQuotient (decide (z < 0)) z.natAbs 1

theorem ofUnits_natCast (n : Nat) : ofUnits n = ofQuotient false n 1 := by
  rw [ofUnits, decide_eq_false (Int.not_lt.mpr (Int.natCast_nonneg n)), Int.natAbs_natCast]

theorem neg_ofQuotient (negative : Bool) (n d : Nat) :
    -ofQuotient negative n d = ofQuotient (!negative) n d := by
  unfold ofQuotient
  split <;> rfl

theorem ofUnits_neg_natCast (h : 0 < n) : ofUnits (-n) = -ofUnits n := by
  rw [ofUnits_natCast, neg_ofQuotient, ofUnits, decide_eq_true (by omega), Int.natAbs_neg,
    Int.natAbs_natCast]
  rfl

theorem ofUnits_mono (h : y ≤ z) : ofUnits y ≤ ofUnits z := by
  have hnonneg {m n : Nat} (hle : m ≤ n) : ofUnits m ≤ ofUnits n := by
    rw [ofUnits_natCast, ofUnits_natCast]
    exact ofQuotient_mono Nat.one_pos Nat.one_pos (by omega)
  rcases Int.lt_or_le y 0 with hy | hy
  · obtain ⟨m, rfl⟩ : ∃ m : Nat, y = -m := ⟨y.natAbs, by omega⟩
    rw [ofUnits_neg_natCast (by omega)]
    rcases Int.lt_or_le z 0 with hz | hz
    · obtain ⟨n, rfl⟩ : ∃ n : Nat, z = -n := ⟨z.natAbs, by omega⟩
      rw [ofUnits_neg_natCast (by omega)]
      exact Binary64.neg_le_neg (hnonneg (by omega))
    · obtain ⟨n, rfl⟩ := Int.eq_ofNat_of_zero_le hz
      have hzero {k : Nat} : 0 ≤ ofUnits k := by
        rw [ofUnits_natCast]
        exact ofQuotient_nonneg Nat.one_pos
      have hbetween : -(0 : Binary64) ≤ 0 := by
        have hopposite : -zero false = zero true := neg_ofQuotient false 0 1
        rw [zero_eq, ← zero_eq_finite, hopposite]
        exact signed_zero_le true false
      exact Binary64.le_trans (Binary64.le_trans (Binary64.neg_le_neg hzero) hbetween) hzero
  · obtain ⟨m, rfl⟩ := Int.eq_ofNat_of_zero_le hy
    obtain ⟨n, rfl⟩ := Int.eq_ofNat_of_zero_le (Int.le_trans hy h)
    exact hnonneg (Int.ofNat_le.mp h)

theorem finite_add_eq : finite negative u hu + finite negative' v hv =
    if signed negative u + signed negative' v = 0 then zero (negative && negative')
    else ofUnits (signed negative u + signed negative' v) := rfl

/-- A sum is the double nearest to its units, but for the sign of a zero. -/
theorem finite_add_near :
    finite negative u hu + finite negative' v hv ≤
        ofUnits (signed negative u + signed negative' v) ∧
      ofUnits (signed negative u + signed negative' v) ≤
        finite negative u hu + finite negative' v hv := by
  rw [finite_add_eq]
  split
  · next hzero =>
      have hunits : ofUnits 0 = zero false := ofUnits_natCast 0
      rw [hzero, hunits]
      exact ⟨signed_zero_le _ _, signed_zero_le _ _⟩
  · have hself := ofUnits_mono (Int.le_refl (signed negative u + signed negative' v))
    exact ⟨hself, hself⟩

protected theorem add_le_add_right (hc : c.isFinite) (h : a ≤ b) : a + c ≤ b + c := by
  cases c with
  | nan => cases hc
  | infinite => cases hc
  | finite t w hw =>
      cases a with
      | nan => cases h
      | infinite s =>
          cases s with
          | false =>
              rw [eq_infinite_of_le h]
              rfl
          | true =>
              cases b with
              | nan => cases h
              | infinite s' => cases s' <;> rfl
              | finite => exact infinite_le finite_add_near.2
      | finite s u hu =>
          cases b with
          | nan => cases h
          | infinite s' =>
              cases s' with
              | false => exact le_infinite finite_add_near.1
              | true => cases h
          | finite s' v hv =>
              have hsum := Int.add_le_add_right (finite_le_finite.mp h) (signed t w)
              exact Binary64.le_trans finite_add_near.1
                (Binary64.le_trans (ofUnits_mono hsum) finite_add_near.2)

/-! ## Whole numbers -/

theorem two_pow_add_mul_one (j k : Nat) :
    Nat.pow 2 j * (Nat.pow 2 k * one) = Nat.pow 2 (j + k) * one := by
  rw [← Nat.mul_assoc]
  exact congrArg (· * one) (Nat.pow_add 2 j k).symm

/-- Multiples of a power of two can be held as far as its whole numbers. -/
theorem representable_mul_pow {m k : Nat} (hm : m < Nat.pow 2 53) (hk : k + 53 < 1024) :
    Representable (m * (Nat.pow 2 k * one)) := by
  refine ⟨?_, ?_⟩
  · calc m * (Nat.pow 2 k * one)
        < Nat.pow 2 53 * (Nat.pow 2 k * one) :=
          Nat.mul_lt_mul_of_pos_right hm (Nat.mul_pos (Nat.two_pow_pos k) Binary64.one_pos)
      _ = Nat.pow 2 (53 + k) * one := two_pow_add_mul_one 53 k
      _ < overflow := two_pow_mul_one_lt_overflow (by omega)
  · rw [two_pow_mul_one]
    exact spacing_dvd_mul_pow hm

theorem representable_whole (h : n ≤ Nat.pow 2 53) : Representable (n * one) := by
  rcases Nat.lt_or_eq_of_le h with hlt | rfl
  · exact representable_ofNat hlt
  · have hpow : Nat.pow 2 53 * one = Nat.pow 2 52 * (Nat.pow 2 1 * one) := by
      rw [← Nat.mul_assoc]
    rw [hpow]
    exact representable_mul_pow (by decide) (by decide)

theorem ofInt_eq_ofUnits (z : Int) : ofInt z = ofUnits (z * one) := by
  have hsign : decide (z * one < 0) = decide (z < 0) := by
    have hpos : (0 : Int) < one := Int.natCast_pos.mpr Binary64.one_pos
    rw [decide_eq_decide]
    exact ⟨fun h => by_contra fun hz => absurd (Int.mul_nonneg (Int.not_lt.mp hz) hpos.le)
      (Int.not_le.mpr h), fun h => Int.mul_neg_of_neg_of_pos h hpos⟩
  rw [ofUnits, hsign, Int.natAbs_mul, Int.natAbs_natCast, ofInt]

theorem signed_natAbs (z : Int) (n : Nat) :
    signed (decide (z < 0)) (z.natAbs * n) = z * n := by
  rcases Int.lt_or_le z 0 with hz | hz
  · rw [decide_eq_true hz, signed_true, Int.natCast_mul, Int.ofNat_natAbs_of_nonpos hz.le,
      Int.neg_mul, Int.neg_neg]
  · rw [decide_eq_false (Int.not_lt.mpr hz), signed_false, Int.natCast_mul,
      Int.natAbs_of_nonneg hz]

theorem ofInt_eq_finite (h : Representable (z.natAbs * one)) :
    ofInt z = finite (decide (z < 0)) (z.natAbs * one) h := by
  rw [← ofQuotient_mul h Nat.one_pos, Nat.mul_one, ofInt]

theorem ofNat_eq_finite (h : Representable (n * one)) : ofNat n = finite false (n * one) h := by
  rw [← ofQuotient_mul h Nat.one_pos, Nat.mul_one, ofNat]

theorem ofInt_natCast (n : Nat) : ofInt n = ofNat n := by
  rw [ofInt, decide_eq_false (Int.not_lt.mpr (Int.natCast_nonneg n)), Int.natAbs_natCast, ofNat]

theorem ofInt_neg_natCast (h : 0 < n) : ofInt (-n) = -ofNat n := by
  rw [ofInt, decide_eq_true (by omega), Int.natAbs_neg, Int.natAbs_natCast, ofNat, neg_ofQuotient]
  rfl

theorem add_ofInt_le {k : Int} (hz : Representable (z.natAbs * one))
    (hk : Representable (k.natAbs * one)) (h : a ≤ ofInt z) : a + ofInt k ≤ ofInt (z + k) := by
  have hfinite : (ofInt k).isFinite := by
    rw [ofInt_eq_finite hk]
    rfl
  refine Binary64.le_trans (Binary64.add_le_add_right hfinite h) ?_
  rw [ofInt_eq_ofUnits (z + k), Int.add_mul, ← signed_natAbs z, ← signed_natAbs k,
    ofInt_eq_finite hz, ofInt_eq_finite hk]
  exact finite_add_near.1

theorem add_zero_le (hz : Representable (z.natAbs * one)) (h : a ≤ ofInt z) : a + 0 ≤ ofInt z := by
  have hzero : ofInt 0 = 0 := ofInt_natCast 0
  have hsum := add_ofInt_le hz (representable_whole (n := Int.natAbs 0) (by decide)) h
  rwa [hzero, Int.add_zero] at hsum

theorem sub_one_le (hz : Representable (z.natAbs * one)) (h : a ≤ ofInt z) :
    a - 1 ≤ ofInt (z - 1) := by
  have hone : ofInt (-1) = -1 := ofInt_neg_natCast Nat.one_pos
  have hsum : a + ofInt (-1) ≤ ofInt (z + -1) :=
    add_ofInt_le hz (representable_whole (n := Int.natAbs (-1)) (by decide)) h
  rw [hone] at hsum
  exact hsum

/-! ## Numbers that are not counted down -/

theorem pow_mul_one_dvd {k : Nat} (hu : Representable u) (h : Nat.pow 2 (k + 52) * one ≤ u) :
    Nat.pow 2 k * one ∣ u := by
  rw [two_pow_mul_one] at h ⊢
  rw [Nat.add_right_comm] at h
  exact Nat.dvd_trans (pow_dvd_spacing h) hu.aligned

/-- The doubles from `2 ^ (k + 52)` on are `2 ^ k` apart, at least. -/
theorem units_le_of_lt {k : Nat} (hn : Nat.pow 2 52 ≤ n) (hu : Representable u)
    (h : u < (n + 1) * (Nat.pow 2 k * one)) : u ≤ n * (Nat.pow 2 k * one) := by
  rcases Nat.lt_or_ge u (n * (Nat.pow 2 k * one)) with hsmall | hlarge
  · exact hsmall.le
  · have hdvd : Nat.pow 2 k * one ∣ u := by
      refine pow_mul_one_dvd hu (Nat.le_trans ?_ hlarge)
      rw [Nat.add_comm, ← two_pow_add_mul_one]
      exact Nat.mul_le_mul_right _ hn
    obtain ⟨m, rfl⟩ := hdvd
    rw [Nat.mul_comm] at h ⊢
    exact Nat.mul_le_mul_right _ (Nat.le_of_lt_succ (Nat.lt_of_mul_lt_mul_right h))

/-- From this number on one less is rounded back up. -/
def undiminished : Binary64 := ofNat (Nat.pow 2 53 + 4)

theorem le_sub_one (h : undiminished ≤ a) : undiminished ≤ a - 1 := by
  have hsame : undiminished + -1 = undiminished := by decide +kernel
  have hfinite : (-1 : Binary64).isFinite := by
    rw [one_eq]
    rfl
  have hle : undiminished + -1 ≤ a - 1 := Binary64.add_le_add_right hfinite h
  rwa [hsame] at hle

theorem undiminished_eq : ∃ hv, undiminished = finite false ((Nat.pow 2 53 + 4) * one) hv := by
  have hpow : (Nat.pow 2 53 + 4) * one = (Nat.pow 2 52 + 2) * (Nat.pow 2 1 * one) := by
    rw [← Nat.mul_assoc]
  have hheld : Representable ((Nat.pow 2 53 + 4) * one) := by
    rw [hpow]
    exact representable_mul_pow (by decide) (by decide)
  exact ⟨hheld, ofNat_eq_finite hheld⟩

theorem finite_lt_undiminished :
    finite false u hu < undiminished ↔ u < (Nat.pow 2 53 + 4) * one := by
  obtain ⟨hv, heq⟩ := undiminished_eq
  rw [heq, finite_lt_finite, signed_false, signed_false, Int.ofNat_lt]

theorem undiminished_le_finite :
    undiminished ≤ finite false u hu ↔ (Nat.pow 2 53 + 4) * one ≤ u := by
  obtain ⟨hv, heq⟩ := undiminished_eq
  rw [heq, finite_le_finite, signed_false, signed_false, Int.ofNat_le]

theorem undiminished_pos : 0 < undiminished := by
  obtain ⟨hv, heq⟩ := undiminished_eq
  rw [heq]
  exact zero_lt_finite (Nat.mul_pos (by decide) Binary64.one_pos)

/-- The double below is two less. One less than that is half way to the next, which is even. -/
theorem sub_one_le_of_lt (h0 : 0 < a) (h : a < undiminished) :
    a - 1 ≤ ofInt (Nat.pow 2 53 : Nat) := by
  have hbelow : (Nat.pow 2 53 + 2) * one = (Nat.pow 2 52 + 1) * (Nat.pow 2 1 * one) := by
    rw [← Nat.mul_assoc]
  have hheld : Representable ((Nat.pow 2 53 + 2) * one) := by
    rw [hbelow]
    exact representable_mul_pow (by decide) (by decide)
  have hle : a ≤ ofInt (Nat.pow 2 53 + 2 : Nat) := by
    obtain ⟨u, hu, rfl, -⟩ := exists_of_pos (isFinite_of_lt h0 h) h0
    have hbound : (Nat.pow 2 53 + 4) * one = (Nat.pow 2 52 + 1 + 1) * (Nat.pow 2 1 * one) := by
      rw [← Nat.mul_assoc]
    rw [finite_lt_undiminished, hbound] at h
    rw [ofInt_natCast, ofNat_eq_finite hheld, finite_le_finite, signed_false, signed_false,
      Int.ofNat_le, hbelow]
    exact units_le_of_lt (by decide) hu h
  have hrounded : ofInt ((Nat.pow 2 53 + 2 : Nat) - 1) = ofInt (Nat.pow 2 53 : Nat) := by
    decide +kernel
  rw [← hrounded]
  refine sub_one_le ?_ hle
  rwa [Int.natAbs_natCast]

end Settle.Binary64
