import Mathlib.Data.Nat.Log
import Settle.Number.Binary64

/-! # Rounding keeps order

A larger quotient is not rounded to a smaller number, neither to a whole one nor to a double, and
what can be held is not rounded at all. So no quotient is rounded past a number that can be held. -/

namespace Settle

variable {n d n' d' k : Nat}

/-! ## Whole numbers -/

/-- A quotient is rounded past `k` if it lies past the middle between `k` and the next number, or in
the middle with `k` odd. -/
theorem lt_roundHalfEven_iff (hd : 0 < d) : k < roundHalfEven n d ↔
    d * (2 * k + 1) < 2 * n ∨ d * (2 * k + 1) = 2 * n ∧ k % 2 = 1 := by
  have hn := Nat.div_add_mod n d
  have hr := Nat.mod_lt n hd
  unfold roundHalfEven
  dsimp only
  generalize n / d = q at *
  generalize n % d = r at *
  subst hn
  rcases Nat.lt_trichotomy k q with hk | rfl | hk
  · have hmul : d * (2 * k + 2) ≤ d * (2 * q) := Nat.mul_le_mul_left d (by omega)
    have hpast : d * (2 * k + 1) < 2 * (d * q + r) := by
      rw [Nat.mul_add, Nat.mul_left_comm] at hmul ⊢
      rw [Nat.mul_left_comm d 2 q] at hmul
      omega
    refine ⟨fun _ => .inl hpast, fun _ => ?_⟩
    split <;> omega
  · have hmul : d * (2 * k + 1) = 2 * (d * k) + d := by
      rw [Nat.mul_add, Nat.mul_left_comm, Nat.mul_one]
    rw [hmul]
    split <;> omega
  · have hmul : d * (2 * q + 3) ≤ d * (2 * k + 1) := Nat.mul_le_mul_left d (by omega)
    rw [Nat.mul_add d, Nat.mul_left_comm d 2 q] at hmul
    split <;> omega

theorem roundHalfEven_mono (hd : 0 < d) (hd' : 0 < d') (h : n * d' ≤ n' * d) :
    roundHalfEven n d ≤ roundHalfEven n' d' := by
  refine Nat.le_of_not_lt fun hlt => ?_
  have hnot := (lt_roundHalfEven_iff hd').not.mp (Nat.lt_irrefl (roundHalfEven n' d'))
  generalize roundHalfEven n' d' = k at hlt hnot
  -- Both quotients are compared with the middle over the common denominator.
  have hcross : d' * (2 * n) ≤ d * (2 * n') := by
    rw [Nat.mul_left_comm, Nat.mul_left_comm d 2 n', Nat.mul_comm d' n, Nat.mul_comm d n']
    exact Nat.mul_le_mul_left 2 h
  have hcomm : d' * (d * (2 * k + 1)) = d * (d' * (2 * k + 1)) := Nat.mul_left_comm _ _ _
  rcases (lt_roundHalfEven_iff hd).mp hlt with hpast | ⟨hmiddle, hodd⟩
  · refine hnot (.inl (Nat.lt_of_mul_lt_mul_left (a := d) ?_))
    calc d * (d' * (2 * k + 1)) = d' * (d * (2 * k + 1)) := hcomm.symm
      _ < d' * (2 * n) := Nat.mul_lt_mul_of_pos_left hpast hd'
      _ ≤ d * (2 * n') := hcross
  · have hle : d' * (2 * k + 1) ≤ 2 * n' := by
      refine Nat.le_of_mul_le_mul_left ?_ hd
      calc d * (d' * (2 * k + 1)) = d' * (d * (2 * k + 1)) := hcomm.symm
        _ = d' * (2 * n) := by rw [hmiddle]
        _ ≤ d * (2 * n') := hcross
    rcases Nat.lt_or_eq_of_le hle with hpast | hmeets
    · exact hnot (.inl hpast)
    · exact hnot (.inr ⟨hmeets, hodd⟩)

theorem roundHalfEven_mul (k : Nat) (hd : 0 < d) : roundHalfEven (k * d) d = k := by
  simp [roundHalfEven, Nat.mul_div_cancel k hd, hd]

theorem roundHalfEven_error (n : Nat) (hd : 0 < d) :
    2 * (roundHalfEven n d * d) ≤ 2 * n + d ∧ 2 * n ≤ 2 * (roundHalfEven n d * d) + d := by
  have hn := Nat.div_add_mod n d
  have hr := Nat.mod_lt n hd
  unfold roundHalfEven
  dsimp only
  generalize n / d = q at *
  generalize n % d = r at *
  subst hn
  rw [Nat.mul_comm d q]
  split
  · omega
  · rw [Nat.add_mul, Nat.one_mul]
    omega

theorem roundHalfEven_eq_of_near (hlow : 2 * n < 2 * (k * d) + d) (hhigh : 2 * (k * d) < 2 * n + d) :
    roundHalfEven n d = k := by
  have hd : 0 < d := by omega
  obtain ⟨hover, hunder⟩ := roundHalfEven_error n hd
  have hle : roundHalfEven n d * d < (k + 1) * d := by
    rw [Nat.add_mul, Nat.one_mul]
    omega
  have hge : k * d < (roundHalfEven n d + 1) * d := by
    rw [Nat.add_mul, Nat.one_mul]
    omega
  have hlt := Nat.lt_of_mul_lt_mul_right hle
  have hgt := Nat.lt_of_mul_lt_mul_right hge
  omega

namespace Binary64

variable {units : Nat}

/-! ## Magnitudes -/

/-- A magnitude that can be held is its own nearest double. -/
theorem nearest_mul (h : spacing units ∣ units) (hd : 0 < d) :
    nearest (units * d) d = units := by
  obtain ⟨m, hm⟩ := h
  have hmul : units * d = m * (d * spacing units) := by
    conv_lhs => rw [hm]
    rw [Nat.mul_comm (spacing units), Nat.mul_assoc, Nat.mul_comm d]
  unfold nearest
  dsimp only
  rw [Nat.mul_div_cancel units hd, hmul,
    roundHalfEven_mul m (Nat.mul_pos hd (spacing_pos units)), Nat.mul_comm]
  exact hm.symm

theorem nearest_le (n d : Nat) : nearest n d ≤ Nat.pow 2 ((n / d).log2 - 52 + 53) := by
  calc nearest n d ≤ Nat.pow 2 53 * spacing (n / d) :=
        Nat.mul_le_mul_right _ (roundHalfEven_spacing_le n d)
    _ = Nat.pow 2 53 * Nat.pow 2 ((n / d).log2 - 52) := rfl
    _ = Nat.pow 2 ((n / d).log2 - 52 + 53) := by
        rw [Nat.add_comm]
        exact (Nat.pow_add 2 53 _).symm

theorem pow_le_nearest (h : 52 ≤ (n / d).log2) : Nat.pow 2 (n / d).log2 ≤ nearest n d := by
  have hpow : Nat.pow 2 (n / d).log2 = Nat.pow 2 52 * spacing (n / d) := by
    have hsum : (n / d).log2 = 52 + ((n / d).log2 - 52) := by omega
    conv_lhs => rw [hsum]
    exact Nat.pow_add 2 52 _
  have hpos : n / d ≠ 0 := by
    rintro h0
    simp [h0] at h
  have hquotient : Nat.pow 2 52 ≤ n / (d * spacing (n / d)) := by
    rw [← Nat.div_div_eq_div_mul, Nat.le_div_iff_mul_le (spacing_pos _), ← hpow]
    exact Nat.log2_self_le hpos
  rw [hpow]
  exact Nat.mul_le_mul_right _ (Nat.le_trans hquotient (div_le_roundHalfEven _ _))

theorem nearest_mono (hd : 0 < d) (hd' : 0 < d') (h : n * d' ≤ n' * d) :
    nearest n d ≤ nearest n' d' := by
  have hq : n / d ≤ n' / d' := by
    refine (Nat.le_div_iff_mul_le hd').mpr (Nat.le_of_mul_le_mul_right ?_ hd)
    calc n / d * d' * d = n / d * d * d' := Nat.mul_right_comm _ _ _
      _ ≤ n * d' := Nat.mul_le_mul_right d' (Nat.div_mul_le_self n d)
      _ ≤ n' * d := h
  have hlog : (n / d).log2 ≤ (n' / d').log2 := by
    rw [Nat.log2_eq_log_two, Nat.log2_eq_log_two]
    exact Nat.log_mono_right hq
  rcases Nat.lt_or_ge ((n / d).log2 - 52) ((n' / d').log2 - 52) with hlt | hge
  · -- A power of two lies between the binades.
    calc nearest n d ≤ Nat.pow 2 ((n / d).log2 - 52 + 53) := nearest_le n d
      _ ≤ Nat.pow 2 (n' / d').log2 := Nat.pow_le_pow_right (by decide) (by omega)
      _ ≤ nearest n' d' := pow_le_nearest (by omega)
  · have hspacing : spacing (n / d) = spacing (n' / d') := by
      unfold spacing
      rw [Nat.le_antisymm hge (Nat.sub_le_sub_right hlog 52)]
    unfold nearest
    rw [hspacing]
    refine Nat.mul_le_mul_right _ (roundHalfEven_mono (Nat.mul_pos hd (spacing_pos _))
      (Nat.mul_pos hd' (spacing_pos _)) ?_)
    rw [← Nat.mul_assoc, ← Nat.mul_assoc]
    exact Nat.mul_le_mul_right _ h

theorem le_nearest (hu : spacing units ∣ units) (hd : 0 < d) (h : units * d ≤ n) :
    units ≤ nearest n d := by
  calc units = nearest (units * d) d := (nearest_mul hu hd).symm
    _ ≤ nearest n d := nearest_mono hd hd (Nat.mul_le_mul_right d h)

theorem nearest_le_of_le (hu : spacing units ∣ units) (hd : 0 < d) (h : n ≤ units * d) :
    nearest n d ≤ units := by
  calc nearest n d ≤ nearest (units * d) d := nearest_mono hd hd (Nat.mul_le_mul_right d h)
    _ = units := nearest_mul hu hd

/-! ## Errors -/

theorem spacing_le {k : Nat} (h : units < Nat.pow 2 (k + 53)) : spacing units ≤ Nat.pow 2 k :=
  Nat.le_of_dvd (Nat.two_pow_pos k) (spacing_dvd_pow h)

theorem pow_dvd_spacing {k : Nat} (h : Nat.pow 2 (k + 52) ≤ units) :
    Nat.pow 2 k ∣ spacing units := by
  have hpos : units ≠ 0 := (Nat.lt_of_lt_of_le (Nat.two_pow_pos _) h).ne'
  have hlog : k + 52 ≤ units.log2 := (Nat.le_log2 hpos).mpr h
  exact Nat.pow_dvd_pow 2 (by omega)

theorem spacing_dvd_mul_pow {k m : Nat} (h : m < Nat.pow 2 53) :
    spacing (m * Nat.pow 2 k) ∣ m * Nat.pow 2 k := by
  refine Nat.dvd_trans (spacing_dvd_pow ?_) (Nat.dvd_mul_left _ m)
  calc m * Nat.pow 2 k < Nat.pow 2 53 * Nat.pow 2 k := Nat.mul_lt_mul_of_pos_right h (Nat.two_pow_pos k)
    _ = Nat.pow 2 (k + 53) := by
        rw [Nat.mul_comm]
        exact (Nat.pow_add 2 k 53).symm

theorem nearest_error (n : Nat) (hd : 0 < d) :
    2 * (nearest n d * d) ≤ 2 * n + d * spacing (n / d) ∧
      2 * n ≤ 2 * (nearest n d * d) + d * spacing (n / d) := by
  have hmul : roundHalfEven n (d * spacing (n / d)) * (d * spacing (n / d)) = nearest n d * d := by
    unfold nearest
    dsimp only
    rw [Nat.mul_assoc, Nat.mul_comm (spacing (n / d)) d]
  have herror := roundHalfEven_error n (Nat.mul_pos hd (spacing_pos (n / d)))
  rwa [hmul] at herror

/-- What is off by less than half the spacing is a multiple of it: if it lies in the binade below,
it lies there at least half the spacing from the end. -/
theorem spacing_dvd_of_near (hu : spacing units ∣ units) (hlow : 2 * n < 2 * units + spacing n)
    (hhigh : 2 * units < 2 * n + spacing n) : spacing n ∣ units := by
  rcases Nat.lt_or_ge n.log2 53 with hsmall | hlarge
  · have hone : spacing n = 1 := by
      rw [spacing, Nat.sub_eq_zero_of_le (Nat.le_of_lt_succ hsmall)]
    rw [hone]
    exact Nat.one_dvd units
  · obtain ⟨k, hk⟩ := Nat.exists_eq_add_of_le' hlarge
    have hspacing : spacing n = Nat.pow 2 (k + 1) := by
      rw [spacing, hk]
      rfl
    have hdouble : Nat.pow 2 (k + 1) = 2 * Nat.pow 2 k := Nat.pow_succ'
    have hstart : Nat.pow 2 (k + 1 + 52) = 2 ^ 53 * Nat.pow 2 k := by
      rw [Nat.add_assoc, Nat.add_comm]
      exact Nat.pow_add 2 53 k
    have hmiddle : Nat.pow 2 (k + 52) = 2 ^ 52 * Nat.pow 2 k := by
      rw [Nat.add_comm]
      exact Nat.pow_add 2 52 k
    have hn : Nat.pow 2 (k + 1 + 52) ≤ n := by
      have h0 : n ≠ 0 := by
        rintro rfl
        simp at hlarge
      exact hk ▸ Nat.log2_self_le h0
    rw [hspacing] at hlow hhigh ⊢
    rcases Nat.lt_or_ge units (Nat.pow 2 (k + 1 + 52)) with hbelow | habove
    · obtain ⟨m, rfl⟩ := Nat.dvd_trans (pow_dvd_spacing (k := k) (by omega)) hu
      have hm : m < 2 ^ 53 := by
        rw [hstart, Nat.mul_comm] at hbelow
        exact Nat.lt_of_mul_lt_mul_right hbelow
      have hle : Nat.pow 2 k * (m + 1) ≤ Nat.pow 2 k * 2 ^ 53 := Nat.mul_le_mul_left _ hm
      rw [Nat.mul_add_one] at hle
      omega
    · exact Nat.dvd_trans (pow_dvd_spacing habove) hu

/-- A magnitude that can be held is the nearest one to all that is off by less than half the
spacing. -/
theorem nearest_eq_of_near (hu : spacing units ∣ units) (hlow : 2 * n < 2 * units + spacing n)
    (hhigh : 2 * units < 2 * n + spacing n) : nearest n 1 = units := by
  obtain ⟨m, rfl⟩ := spacing_dvd_of_near hu hlow hhigh
  rw [Nat.mul_comm (spacing n) m] at hlow hhigh ⊢
  unfold nearest
  dsimp only
  rw [Nat.div_one, Nat.one_mul, roundHalfEven_eq_of_near hlow hhigh]

end Binary64

end Settle
