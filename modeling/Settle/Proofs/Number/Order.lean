import Settle.Proofs.Number.Rounding
import Settle.Time

/-! # Arithmetic on doubles keeps order

Sums, differences, products and quotients of doubles are rounded once, so bounds on exact results
that a double can hold are bounds on the rounded ones. -/

namespace Settle

namespace Binary64

variable {negative negative' : Bool} {u v n d n' d' : Nat} {hu : Representable u} {hv : Representable v}
  {a x : Binary64}

/-! ## Small numbers -/

protected theorem one_pos : 0 < one := by
  unfold one
  exact Nat.two_pow_pos _

theorem two_pow_mul_one (k : Nat) : Nat.pow 2 k * one = Nat.pow 2 (k + 1074) := by
  unfold one
  exact (Nat.pow_add 2 k 1074).symm

theorem two_pow_mul_one_lt_overflow {k : Nat} (h : k < 1024) : Nat.pow 2 k * one < overflow := by
  rw [two_pow_mul_one, overflow]
  exact Nat.pow_lt_pow_right (by decide) (Nat.add_lt_add_right h 1074)

theorem representable_ofNat (h : n < Nat.pow 2 53) : Representable (n * one) := by
  refine ⟨?_, ?_⟩
  · calc n * one < Nat.pow 2 53 * one := Nat.mul_lt_mul_of_pos_right h Binary64.one_pos
      _ < overflow := two_pow_mul_one_lt_overflow (by decide)
  · unfold one
    exact spacing_dvd_mul_pow h

/-- A number that can be held is not rounded. -/
theorem ofQuotient_mul (hu : Representable u) (hd : 0 < d) :
    ofQuotient negative (u * d) d = finite negative u hu := by
  have hnearest := nearest_mul hu.aligned hd
  unfold ofQuotient
  rw [dif_pos (hnearest.symm ▸ hu.inRange)]
  simp only [hnearest]

theorem ofNat_of_lt (h : n < Nat.pow 2 53) : ofNat n = finite false (n * one) (representable_ofNat h) := by
  rw [← ofQuotient_mul (representable_ofNat h) Nat.one_pos, Nat.mul_one, ofNat]

theorem representable_zero : Representable 0 :=
  Nat.zero_mul one ▸ representable_ofNat (by decide)

theorem representable_one : Representable one :=
  Nat.one_mul one ▸ representable_ofNat (by decide)

theorem zero_eq : (0 : Binary64) = finite false 0 representable_zero := by
  change ofNat 0 = _
  rw [ofNat_of_lt (by decide)]
  simp only [Nat.zero_mul]

theorem one_eq : (1 : Binary64) = finite false one representable_one := by
  change ofNat 1 = _
  rw [ofNat_of_lt (by decide)]
  simp only [Nat.one_mul]

theorem one_isFinite : (1 : Binary64).isFinite := by
  rw [one_eq]
  rfl

@[simp] theorem signed_false (u : Nat) : signed false u = u := rfl

@[simp] theorem signed_true (u : Nat) : signed true u = -u := rfl

/-! ## Order -/

theorem finite_le_finite :
    finite negative u hu ≤ finite negative' v hv ↔ signed negative u ≤ signed negative' v := by
  change le _ _ = true ↔ _
  simp [le, lt]

theorem finite_lt_finite :
    finite negative u hu < finite negative' v hv ↔ signed negative u < signed negative' v := by
  change lt _ _ = true ↔ _
  simp [lt]

theorem finite_le_infinite : finite negative u hu ≤ infinite false := rfl

theorem infinite_le_infinite : infinite negative ≤ infinite negative := by
  cases negative <;> rfl

theorem eq_infinite_of_le (h : infinite false ≤ x) : x = infinite false := by
  cases x with
  | nan => cases h
  | finite => cases h
  | infinite negative =>
      cases negative with
      | false => rfl
      | true => cases h

theorem eq_infinite_of_ge (h : x ≤ infinite true) : x = infinite true := by
  cases x with
  | nan => cases h
  | finite => cases h
  | infinite negative =>
      cases negative with
      | false => cases h
      | true => rfl

theorem infinite_le (h : x ≤ a) : infinite true ≤ a := by
  cases a with
  | nan => cases x <;> cases h
  | finite => rfl
  | infinite negative => cases negative <;> rfl

theorem le_infinite (h : a ≤ x) : a ≤ infinite false := by
  cases a with
  | nan => cases h
  | finite => rfl
  | infinite negative => cases negative <;> rfl

protected theorem le_trans {c : Binary64} (hab : a ≤ x) (hbc : x ≤ c) : a ≤ c := by
  cases x with
  | nan => cases hbc
  | infinite negative =>
      cases negative with
      | false => rwa [eq_infinite_of_le hbc]
      | true => rwa [eq_infinite_of_ge hab]
  | finite negative v hv =>
      cases a with
      | nan => cases hab
      | infinite s =>
          cases s with
          | false => cases hab
          | true => exact infinite_le hbc
      | finite s u hu =>
          cases c with
          | nan => cases hbc
          | infinite t =>
              cases t with
              | false => rfl
              | true => cases hbc
          | finite =>
              rw [finite_le_finite] at hab hbc ⊢
              exact Int.le_trans hab hbc

theorem le_self_of_le (h : a ≤ x) : x ≤ x := by
  cases x with
  | nan => cases a <;> cases h
  | infinite => exact infinite_le_infinite
  | finite => exact finite_le_finite.mpr (Int.le_refl _)

theorem exists_of_le (h0 : 0 < u) (h : finite false u hu ≤ x) :
    x = infinite false ∨ ∃ v hv, x = finite false v hv ∧ u ≤ v := by
  cases x with
  | nan => cases h
  | infinite negative =>
      cases negative with
      | false => exact .inl rfl
      | true => cases h
  | finite negative v hv =>
      have hle := finite_le_finite.mp h
      cases negative with
      | false => exact .inr ⟨v, hv, rfl, Int.ofNat_le.mp hle⟩
      | true =>
          simp only [signed_false, signed_true] at hle
          omega

theorem exists_of_nonneg (h : 0 ≤ x) :
    x = infinite false ∨ ∃ negative v hv, x = finite negative v hv ∧ signed negative v = v := by
  rw [zero_eq] at h
  cases x with
  | nan => cases h
  | infinite negative =>
      cases negative with
      | false => exact .inl rfl
      | true => cases h
  | finite negative v hv =>
      refine .inr ⟨negative, v, hv, rfl, ?_⟩
      have hle := finite_le_finite.mp h
      cases negative with
      | false => rfl
      | true =>
          simp only [signed_false, signed_true] at hle ⊢
          omega

theorem exists_of_pos (hfinite : x.isFinite) (h : 0 < x) :
    ∃ v hv, x = finite false v hv ∧ 0 < v := by
  rw [zero_eq] at h
  cases x with
  | nan => cases hfinite
  | infinite => cases hfinite
  | finite negative v hv =>
      have hlt := finite_lt_finite.mp h
      cases negative with
      | false => exact ⟨v, hv, rfl, Int.natCast_pos.mp hlt⟩
      | true =>
          simp only [signed_false, signed_true] at hlt
          omega

theorem pos_cases (h : 0 < x) : x = infinite false ∨ ∃ u hu, x = finite false u hu ∧ 0 < u := by
  cases x with
  | finite => exact .inr (exists_of_pos rfl h)
  | nan =>
      rw [zero_eq] at h
      cases h
  | infinite negative =>
      rw [zero_eq] at h
      cases negative with
      | false => exact .inl rfl
      | true => cases h

theorem zero_lt_finite (h : 0 < u) : 0 < finite false u hu := by
  rw [zero_eq]
  exact finite_lt_finite.mpr (Int.natCast_pos.mpr h)

theorem zero_le_zero : (0 : Binary64) ≤ 0 := by
  rw [zero_eq]
  exact finite_le_finite.mpr (Int.le_refl _)

theorem zero_lt_infinite : 0 < infinite false := by
  rw [zero_eq]
  rfl

protected theorem zero_lt_one : 0 < (1 : Binary64) := by
  rw [one_eq]
  exact zero_lt_finite Binary64.one_pos

theorem pos_of_le (ha : 0 < a) (h : a ≤ x) : 0 < x := by
  rcases pos_cases ha with rfl | ⟨u, hu, rfl, h0⟩
  · rw [eq_infinite_of_le h]
    exact zero_lt_infinite
  · rcases exists_of_le h0 h with rfl | ⟨v, hv, rfl, hle⟩
    · exact zero_lt_infinite
    · exact zero_lt_finite (Nat.lt_of_lt_of_le h0 hle)

theorem pos_of_one_le (h : 1 ≤ x) : 0 < x := pos_of_le Binary64.zero_lt_one h

theorem nonneg_of_pos (h : 0 < x) : 0 ≤ x := by
  rw [zero_eq]
  rcases pos_cases h with rfl | ⟨u, hu, rfl, -⟩
  · rfl
  · exact finite_le_finite.mpr (Int.natCast_nonneg u)

protected theorem one_le_one : (1 : Binary64) ≤ 1 :=
  le_self_of_le (nonneg_of_pos Binary64.zero_lt_one)

theorem finite_of_le (ha : 0 < a) (h : a ≤ finite false u hu) :
    ∃ v hv, a = finite false v hv ∧ v ≤ u := by
  rcases pos_cases ha with rfl | ⟨v, hv, rfl, -⟩
  · cases h
  · exact ⟨v, hv, rfl, Int.ofNat_le.mp (finite_le_finite.mp h)⟩

protected theorem le_total {b : Binary64} (ha : a ≤ a) (hb : b ≤ b) : a ≤ b ∨ b ≤ a := by
  cases a with
  | nan => cases ha
  | infinite s =>
      cases s with
      | false => exact .inr (le_infinite hb)
      | true => exact .inl (infinite_le hb)
  | finite s u hu =>
      cases b with
      | nan => cases hb
      | infinite t =>
          cases t with
          | false => exact .inl rfl
          | true => exact .inr rfl
      | finite t v hv =>
          rw [finite_le_finite, finite_le_finite]
          exact Int.le_total _ _

theorem lesser_of_le {b : Binary64} (h : a ≤ b) : a.lesser b = a := by
  cases a with
  | nan => cases h
  | _ =>
      cases b with
      | nan => cases h
      | _ => simp only [lesser, h, if_true]

/-- This holds of `nan` as well, which gives way to the bound. -/
theorem lesser_of_not_le {b : Binary64} (hb : b ≤ b) (h : ¬ a ≤ b) : a.lesser b = b := by
  cases a with
  | nan => rw [lesser]
  | _ =>
      cases b with
      | nan => cases hb
      | _ => simp only [lesser, h, if_false]

theorem lesser_le_right {b : Binary64} (hb : b ≤ b) : a.lesser b ≤ b := by
  by_cases h : a ≤ b
  · rwa [lesser_of_le h]
  · rwa [lesser_of_not_le hb h]

theorem lesser_le_left {b : Binary64} (ha : a ≤ a) (hb : b ≤ b) : a.lesser b ≤ a := by
  by_cases h : a ≤ b
  · rwa [lesser_of_le h]
  · rw [lesser_of_not_le hb h]
    exact (Binary64.le_total ha hb).resolve_left h

theorem le_lesser {b c : Binary64} (ha : c ≤ a) (hb : c ≤ b) : c ≤ a.lesser b := by
  by_cases h : a ≤ b
  · rwa [lesser_of_le h]
  · rwa [lesser_of_not_le (le_self_of_le hb) h]

theorem lesser_eq (h0 : 0 < u) (h : finite false u hu ≤ x) :
    x.lesser (finite false u hu) = finite false u hu := by
  by_cases hle : x ≤ finite false u hu
  · rcases exists_of_le h0 h with rfl | ⟨v, hv, rfl, huv⟩
    · cases hle
    · have hvu : v ≤ u := Int.ofNat_le.mp (finite_le_finite.mp hle)
      obtain rfl := Nat.le_antisymm huv hvu
      exact lesser_of_le hle
  · exact lesser_of_not_le (finite_le_finite.mpr (Int.le_refl _)) hle

theorem greater_eq (hu : Representable u) (hv : Representable v) :
    ∃ w hw, (finite false u hu).greater (finite false v hv) = finite false w hw ∧
      w = max u v := by
  by_cases hle : v ≤ u
  · have hge : finite false v hv ≤ finite false u hu :=
      finite_le_finite.mpr (Int.ofNat_le.mpr hle)
    refine ⟨u, hu, ?_, (Nat.max_eq_left hle).symm⟩
    simp only [greater, hge, if_true]
  · have hnot : ¬ finite false v hv ≤ finite false u hu := by
      rw [finite_le_finite]
      exact Int.not_le.mpr (Int.ofNat_lt.mpr (Nat.lt_of_not_le hle))
    refine ⟨v, hv, ?_, (Nat.max_eq_right (by omega)).symm⟩
    simp only [greater, hnot, if_false]

/-! ## Rounded results -/

/-- No quotient is rounded past a double. -/
theorem le_ofQuotient (hd : 0 < d) (h : u * d ≤ n) : finite false u hu ≤ ofQuotient false n d := by
  unfold ofQuotient
  split
  · exact finite_le_finite.mpr (Int.ofNat_le.mpr (le_nearest hu.aligned hd h))
  · rfl

theorem ofQuotient_mono (hd : 0 < d) (hd' : 0 < d') (h : n * d' ≤ n' * d) :
    ofQuotient false n d ≤ ofQuotient false n' d' := by
  have hle := nearest_mono hd hd' h
  unfold ofQuotient
  split
  · split
    · exact finite_le_finite.mpr (Int.ofNat_le.mpr hle)
    · exact finite_le_infinite
  · next hpast =>
      rw [dif_neg fun hlt => hpast (Nat.lt_of_le_of_lt hle hlt)]
      exact infinite_le_infinite

theorem ofQuotient_nonneg (hd : 0 < d) : 0 ≤ ofQuotient false n d := by
  rw [zero_eq]
  exact le_ofQuotient hd (by omega)

protected theorem add_comm (a b : Binary64) : a + b = b + a := by
  change add a b = add b a
  cases a with
  | nan => cases b <;> rfl
  | infinite s =>
      cases b with
      | infinite t => cases s <;> cases t <;> rfl
      | nan => rfl
      | finite => rfl
  | finite s u hu =>
      cases b with
      | nan => rfl
      | infinite t => rfl
      | finite t v hv => simp only [add, Int.add_comm (signed s u), Bool.and_comm s]

theorem finite_add_finite {sign : Bool} (h0 : 0 < n)
    (h : signed negative u + signed negative' v = signed sign n) :
    finite negative u hu + finite negative' v hv = ofQuotient sign n 1 := by
  have hne : signed sign n ≠ 0 := by
    cases sign <;> simp only [signed_false, signed_true] <;> omega
  have hsign : decide (signed sign n < 0) = sign := by
    cases sign with
    | false => exact decide_eq_false (Int.not_lt.mpr (Int.natCast_nonneg n))
    | true => exact decide_eq_true (Int.neg_neg_of_pos (Int.natCast_pos.mpr h0))
  have habs : (signed sign n).natAbs = n := by
    cases sign <;> simp only [signed_false, signed_true] <;> omega
  change add _ _ = _
  simp only [add, h, hne, hsign, habs, if_false]

theorem magnitude_add_magnitude :
    finite false u hu + finite false v hv = ofQuotient false (u + v) 1 := by
  rcases Nat.eq_zero_or_pos (u + v) with hzero | hpos
  · have hsum : signed false u + signed false v = 0 := Int.ofNat_eq_zero.mpr hzero
    change add _ _ = _
    simp only [add, hsum, if_true, hzero]
    rfl
  · exact finite_add_finite hpos rfl

theorem le_add_of_nonneg (h0 : 0 < u) (ha : finite false u hu ≤ a) (hx : 0 ≤ x) :
    finite false u hu ≤ a + x := by
  rcases exists_of_le h0 ha with rfl | ⟨v, hv, rfl, hle⟩
  · rcases exists_of_nonneg hx with rfl | ⟨negative, w, hw, rfl, -⟩ <;> rfl
  · rcases exists_of_nonneg hx with rfl | ⟨negative, w, hw, rfl, hsigned⟩
    · rfl
    · have hsum : signed false v + signed negative w = signed false (v + w) := by
        rw [hsigned]
        rfl
      rw [finite_add_finite (by omega) hsum]
      exact le_ofQuotient Nat.one_pos (by omega)

/-- The difference of two doubles, in either direction, is their rounded distance. -/
theorem exists_sub (hu : Representable u) (hv : Representable v) (h : u < v) :
    ∃ w hw, 0 < w ∧ w = nearest (v - u) 1 ∧
      finite false v hv - finite false u hu = finite false w hw ∧
      finite false u hu - finite false v hv = finite true w hw := by
  have hle : nearest (v - u) 1 ≤ v := nearest_le_of_le hv.aligned Nat.one_pos (by omega)
  have hlt : nearest (v - u) 1 < overflow := Nat.lt_of_le_of_lt hle hv.inRange
  have hpos : 1 ≤ nearest (v - u) 1 := le_nearest (by decide) Nat.one_pos (by omega)
  have hdistance : 0 < v - u := by omega
  have hdifference : signed false v + signed true u = signed false (v - u) := by
    simp only [signed_false, signed_true]
    omega
  have hopposite : signed false u + signed true v = signed true (v - u) := by
    simp only [signed_false, signed_true]
    omega
  exact ⟨nearest (v - u) 1, ⟨hlt, aligned_nearest _ _⟩, hpos, rfl,
    (finite_add_finite hdistance hdifference).trans (dif_pos hlt),
    (finite_add_finite hdistance hopposite).trans (dif_pos hlt)⟩

protected theorem sub_nonneg (hu : Representable u) (hv : Representable v) (h : v ≤ u) :
    0 ≤ finite false u hu - finite false v hv := by
  rcases Nat.lt_or_eq_of_le h with hlt | rfl
  · obtain ⟨w, hw, -, -, heq, -⟩ := exists_sub hv hu hlt
    rw [heq, zero_eq]
    exact finite_le_finite.mpr (Int.natCast_nonneg w)
  · have hsum : signed false v + signed true v = 0 := Int.add_right_neg _
    change 0 ≤ add (finite false v hu) (finite true v hv)
    simp only [add, hsum, if_true]
    exact ofQuotient_nonneg Nat.one_pos

theorem zero_mul_nonneg : 0 ≤ (0 : Binary64) * finite false u hu := by
  have hmul : (0 : Binary64) * finite false u hu = ofQuotient false (0 * u) one := by
    rw [zero_eq]
    change mul _ _ = _
    simp only [mul, bne_self_eq_false]
  rw [hmul]
  exact ofQuotient_nonneg Binary64.one_pos

theorem le_mul_of_one_le (h0 : 0 < u) (h : 1 ≤ x) : finite false u hu ≤ x * finite false u hu := by
  change _ ≤ mul x _
  rw [one_eq] at h
  rcases exists_of_le Binary64.one_pos h with rfl | ⟨v, hv, rfl, hle⟩
  · simp only [mul, h0.ne', if_false]
    rfl
  · refine le_ofQuotient Binary64.one_pos ?_
    rw [Nat.mul_comm]
    exact Nat.mul_le_mul_right u hle

theorem ofNat_div_nonneg (h0 : 0 < v) : 0 ≤ ofNat n / finite false v hv := by
  change 0 ≤ div (ofNat n) _
  unfold ofNat ofQuotient
  split
  · simp only [div, h0.ne', if_false]
    exact ofQuotient_nonneg h0
  · rw [zero_eq]
    rfl

/-! ## Products and quotients -/

theorem finite_mul_finite : finite negative u hu * finite negative' v hv =
    ofQuotient (negative != negative') (u * v) one := by
  change mul _ _ = _
  rw [mul]

theorem finite_div_finite (h0 : 0 < v) : finite negative u hu / finite negative' v hv =
    ofQuotient (negative != negative') (u * one) v := by
  change div _ _ = _
  simp only [div, h0.ne', if_false]

theorem zero_mul_finite : 0 * finite false u hu = 0 := by
  have hzero : ofQuotient false (0 * one) one = finite false 0 representable_zero :=
    ofQuotient_mul representable_zero Binary64.one_pos
  rw [Nat.zero_mul] at hzero
  rw [zero_eq, finite_mul_finite, Nat.zero_mul]
  exact hzero

theorem zero_mul_infinite : 0 * infinite negative = nan := by
  rw [zero_eq]
  rfl

theorem infinite_mul (h : 0 < x) : infinite false * x = infinite false := by
  change mul _ _ = _
  rcases pos_cases h with rfl | ⟨u, hu, rfl, h0⟩
  · rfl
  · simp only [mul, h0.ne', if_false, bne_self_eq_false]

theorem mul_infinite (h : 0 < x) : x * infinite false = infinite false := by
  change mul _ _ = _
  rcases pos_cases h with rfl | ⟨u, hu, rfl, h0⟩
  · rfl
  · simp only [mul, h0.ne', if_false, bne_self_eq_false]

theorem mul_le_infinite {b : Binary64} (ha : 0 < a) (hb : 0 < b) : a * b ≤ infinite false := by
  rcases pos_cases ha with rfl | ⟨u, hu, rfl, -⟩
  · rw [infinite_mul hb]
    exact infinite_le_infinite
  · rcases pos_cases hb with rfl | ⟨v, hv, rfl, -⟩
    · rw [mul_infinite ha]
      exact infinite_le_infinite
    · rw [finite_mul_finite]
      exact le_infinite (ofQuotient_mono Binary64.one_pos Binary64.one_pos (Nat.le_refl _))

protected theorem mul_le_mul {a' b b' : Binary64} (ha : 0 < a) (hb : 0 < b) (haa : a ≤ a')
    (hbb : b ≤ b') : a * b ≤ a' * b' := by
  rcases pos_cases (pos_of_le ha haa) with rfl | ⟨u', hu', rfl, -⟩
  · rw [infinite_mul (pos_of_le hb hbb)]
    exact mul_le_infinite ha hb
  · rcases pos_cases (pos_of_le hb hbb) with rfl | ⟨v', hv', rfl, -⟩
    · rw [mul_infinite (pos_of_le ha haa)]
      exact mul_le_infinite ha hb
    · obtain ⟨u, hu, rfl, hule⟩ := finite_of_le ha haa
      obtain ⟨v, hv, rfl, hvle⟩ := finite_of_le hb hbb
      rw [finite_mul_finite, finite_mul_finite]
      exact ofQuotient_mono Binary64.one_pos Binary64.one_pos
        (Nat.mul_le_mul_right _ (Nat.mul_le_mul hule hvle))

protected theorem mul_one (x : Binary64) : x * 1 = x := by
  rw [one_eq]
  cases x with
  | nan => rfl
  | infinite negative =>
      change mul _ _ = _
      simp only [mul, Binary64.one_pos.ne', if_false, Bool.bne_false]
  | finite negative u hu =>
      rw [finite_mul_finite, Bool.bne_false]
      exact ofQuotient_mul hu Binary64.one_pos

protected theorem one_mul (x : Binary64) : 1 * x = x := by
  rw [one_eq]
  cases x with
  | nan => rfl
  | infinite negative =>
      change mul _ _ = _
      simp only [mul, Binary64.one_pos.ne', if_false, Bool.false_bne]
  | finite negative u hu =>
      rw [finite_mul_finite, Bool.false_bne, Nat.mul_comm]
      exact ofQuotient_mul hu Binary64.one_pos

theorem one_le_mul {b : Binary64} (ha : 1 ≤ a) (hb : 1 ≤ b) : 1 ≤ a * b := by
  have hmul := Binary64.mul_le_mul Binary64.zero_lt_one Binary64.zero_lt_one ha hb
  rwa [Binary64.mul_one] at hmul

end Binary64

namespace Nanos

open Binary64

variable {d : Nanos}

theorem toSeconds_zero : toSeconds 0 = 0 := by decide +kernel

/-- A second and more does not round to less than one. -/
theorem one_le_toSeconds (h : seconds 1 ≤ d) : 1 ≤ d.toSeconds := by
  have hwhole : 1 ≤ d / perSecond := (Nat.le_div_iff_mul_le (by decide)).mpr h
  have hfraction : 0 ≤ ofNat (d % perSecond) / ofNat perSecond := by
    have hbase : perSecond < Nat.pow 2 53 := by decide
    rw [ofNat_of_lt hbase]
    exact ofNat_div_nonneg (Nat.mul_pos (by decide) Binary64.one_pos)
  rw [one_eq]
  refine le_add_of_nonneg Binary64.one_pos (le_ofQuotient Nat.one_pos ?_) hfraction
  rw [Nat.mul_one]
  exact Nat.le_mul_of_pos_left one hwhole

end Nanos

end Settle
