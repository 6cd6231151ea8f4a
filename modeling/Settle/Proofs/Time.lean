import Settle.Proofs.Number.Order

/-! # Times in seconds

A time is a number of whole seconds and a fraction, which are rounded apart and added. Reading it
back takes the nearest nanosecond. That is the same time if the time is below `2 ^ 23` seconds, where
doubles lie closer than nanoseconds, or if it was read from a double itself. -/

namespace Settle.Nanos

open Binary64

variable {d e : Nanos} {k n u v : Nat} {hu : Representable u} {hv : Representable v}
  {x y : Binary64}

/-! ## Spacings -/

/-- The spacing of doubles just below one. It stays folded, so that products with it are not taken
for numerals. -/
@[irreducible] def grain : Nat := Nat.pow 2 1021

theorem grain_pos : 0 < grain := by
  unfold grain
  exact Nat.two_pow_pos _

theorem two_pow_mul_grain (k : Nat) : Nat.pow 2 k * grain = Nat.pow 2 (k + 1021) := by
  unfold grain
  exact (Nat.pow_add 2 k 1021).symm

theorem one_eq_grain : one = Nat.pow 2 53 * grain := by
  rw [two_pow_mul_grain]
  rfl

theorem one_eq_mul_grain : one = 9007199254740992 * grain := by
  have hpow : Nat.pow 2 53 = 9007199254740992 := rfl
  rw [one_eq_grain, hpow]

theorem spacing_le_grain (h : u < Nat.pow 2 k * one) : spacing u ≤ Nat.pow 2 k * grain := by
  rw [two_pow_mul_one] at h
  rw [two_pow_mul_grain]
  exact spacing_le h

theorem spacing_le_of_lt_one (h : u < one) : spacing u ≤ grain := by
  rw [one_eq_grain, two_pow_mul_grain, Nat.add_comm] at h
  unfold grain
  exact spacing_le h

theorem grain_dvd_spacing (h : Nat.pow 2 k * one ≤ u) : Nat.pow 2 (k + 1) * grain ∣ spacing u := by
  rw [two_pow_mul_one] at h
  rw [two_pow_mul_grain, Nat.add_right_comm]
  exact pow_dvd_spacing h

/-! ## From times to seconds -/

/-- The units of a fraction of a second. -/
def fraction (d : Nanos) : Nat := nearest (d * one) perSecond

/-- The units of a time before they are rounded together. -/
def units (d : Nanos) : Nat := nearest (d / perSecond * one) 1 + fraction (d % perSecond)

theorem fraction_lt {d : Nat} (h : d < perSecond) : fraction d < one := by
  have hlast : spacing ((Nat.pow 2 53 - 1) * grain) ∣ (Nat.pow 2 53 - 1) * grain := by
    unfold grain
    exact spacing_dvd_mul_pow (by decide)
  have hscaled : d * Nat.pow 2 53 ≤ (Nat.pow 2 53 - 1) * perSecond := by
    have hmost := Nat.mul_le_mul_right (Nat.pow 2 53) (Nat.le_sub_one_of_lt h)
    exact Nat.le_trans hmost (by decide)
  have hle : fraction d ≤ (Nat.pow 2 53 - 1) * grain := by
    refine nearest_le_of_le hlast (by decide) ?_
    calc d * one = d * Nat.pow 2 53 * grain := by rw [one_eq_grain, Nat.mul_assoc]
      _ ≤ (Nat.pow 2 53 - 1) * perSecond * grain := Nat.mul_le_mul_right grain hscaled
      _ = (Nat.pow 2 53 - 1) * grain * perSecond := by rw [Nat.mul_right_comm]
  rw [one_eq_grain]
  exact Nat.lt_of_le_of_lt hle (Nat.mul_lt_mul_of_pos_right (by decide) grain_pos)

theorem representable_fraction (h : d < perSecond) : Representable (fraction d) :=
  ⟨Nat.lt_trans (fraction_lt h) representable_one.inRange, aligned_nearest _ _⟩

theorem ofNat_div_perSecond (h : d < perSecond) :
    ofNat d / ofNat perSecond = finite false (fraction d) (representable_fraction h) := by
  have hd : d < Nat.pow 2 53 := Nat.lt_trans h (by decide)
  have hbase : 0 < perSecond * one := Nat.mul_pos (by decide) Binary64.one_pos
  have hscale : nearest (d * one * one) (perSecond * one) = fraction d := by
    refine Nat.le_antisymm (nearest_mono hbase (by decide) ?_) (nearest_mono (by decide) hbase ?_)
    · rw [Nat.mul_assoc, Nat.mul_comm one]
    · rw [Nat.mul_assoc (d * one), Nat.mul_comm one]
  rw [ofNat_of_lt hd, ofNat_of_lt (by decide), finite_div_finite hbase]
  simp only [bne_self_eq_false, ofQuotient, hscale, (representable_fraction h).inRange, dif_pos]

theorem toSeconds_eq (h : nearest (d / perSecond * one) 1 < overflow) :
    d.toSeconds = ofQuotient false (units d) 1 := by
  have hd : d % perSecond < perSecond := Nat.mod_lt d (by decide)
  have hwhole : ofNat (d / perSecond) =
      finite false (nearest (d / perSecond * one) 1) ⟨h, aligned_nearest _ _⟩ := by
    rw [ofNat, ofQuotient, dif_pos h]
  calc d.toSeconds = ofNat (d / perSecond) + ofNat (d % perSecond) / ofNat perSecond := by
        rw [toSeconds]
    _ = finite false (nearest (d / perSecond * one) 1) ⟨h, aligned_nearest _ _⟩ +
          finite false (fraction (d % perSecond)) (representable_fraction hd) := by
        rw [hwhole, ofNat_div_perSecond hd]
    _ = ofQuotient false (units d) 1 := by rw [magnitude_add_magnitude, units]

theorem toSeconds_cases (d : Nanos) :
    d.toSeconds = infinite false ∨ ∃ u hu, d.toSeconds = finite false u hu := by
  have hd : d % perSecond < perSecond := Nat.mod_lt d (by decide)
  have hsum {n : Nat} : ofQuotient false n 1 = infinite false ∨
      ∃ u hu, ofQuotient false n 1 = finite false u hu := by
    unfold ofQuotient
    split
    · next hlt => exact .inr ⟨_, ⟨hlt, aligned_nearest n 1⟩, rfl⟩
    · exact .inl rfl
  by_cases h : nearest (d / perSecond * one) 1 < overflow
  · rw [toSeconds_eq h]
    exact hsum
  · refine .inl ?_
    rw [toSeconds, ofNat_div_perSecond hd, ofNat, ofQuotient, dif_neg h]
    rfl

theorem toSeconds_nonneg (d : Nanos) : 0 ≤ d.toSeconds := by
  rw [zero_eq]
  rcases toSeconds_cases d with h | ⟨u, hu, h⟩
  · rw [h]
    rfl
  · rw [h]
    exact finite_le_finite.mpr (Int.natCast_nonneg u)

theorem toSeconds_pos_or_zero (d : Nanos) : 0 < d.toSeconds ∨ d.toSeconds = 0 := by
  rcases toSeconds_cases d with h | ⟨u, hu, h⟩
  · exact .inl (h ▸ zero_lt_infinite)
  · rcases Nat.eq_zero_or_pos u with rfl | hpos
    · exact .inr (h.trans zero_eq.symm)
    · exact .inl (h ▸ zero_lt_finite hpos)

/-! ## From seconds to times -/

/-- From this many units on no time can be read. -/
def limit : Nat := Nat.pow 2 64 * one

theorem limit_pos : 0 < limit := Nat.mul_pos (by decide) Binary64.one_pos

theorem limit_lt_overflow : limit < overflow := by
  unfold limit
  exact two_pow_mul_one_lt_overflow (by decide)

theorem ofSeconds?_of_signed {negative : Bool} (h : signed negative u = u) :
    ofSeconds? (finite negative u hu) =
      if limit ≤ u then none else some (roundHalfEven (u * perSecond) one) := by
  have hread : ofSeconds? (finite negative u hu) =
      if u = 0 then some 0
      else if negative ∨ limit ≤ u then none
      else some (roundHalfEven (u * perSecond) one) := rfl
  rw [hread]
  rcases Nat.eq_zero_or_pos u with rfl | h0
  · have hzero := roundHalfEven_mul 0 Binary64.one_pos
    rw [Nat.zero_mul] at hzero
    rw [if_pos rfl, if_neg (Nat.not_le_of_lt limit_pos), Nat.zero_mul, hzero]
  · have hsign : negative = false := by
      cases negative with
      | false => rfl
      | true =>
          simp only [signed_true] at h
          omega
    simp only [h0.ne', if_false, hsign, Bool.false_eq_true, false_or]

theorem ofSeconds?_ofNat (h : n < Nat.pow 2 53) : ofSeconds? (ofNat n) = some (seconds n) := by
  have hlt : n * one < limit :=
    Nat.mul_lt_mul_of_pos_right (Nat.lt_trans h (by decide)) Binary64.one_pos
  rw [ofNat_of_lt h, ofSeconds?_of_signed (signed_false _), if_neg (Nat.not_le_of_lt hlt),
    Nat.mul_right_comm, roundHalfEven_mul _ Binary64.one_pos, seconds]

theorem ofSeconds?_ofQuotient {n d bound : Nat} (h : nearest n d ≤ bound) (hbound : bound < limit) :
    ∃ wait, ofSeconds? (ofQuotient false n d) = some wait ∧
      wait ≤ roundHalfEven (bound * perSecond) one := by
  have hlt : nearest n d < limit := Nat.lt_of_le_of_lt h hbound
  refine ⟨roundHalfEven (nearest n d * perSecond) one, ?_, ?_⟩
  · rw [ofQuotient, dif_pos (Nat.lt_trans hlt limit_lt_overflow),
      ofSeconds?_of_signed (signed_false _), if_neg (Nat.not_le_of_lt hlt)]
  · exact roundHalfEven_mono Binary64.one_pos Binary64.one_pos
      (Nat.mul_le_mul_right one (Nat.mul_le_mul_right _ h))

theorem exists_of_ofSeconds? (h : ofSeconds? x = some d) :
    ∃ negative u hu, x = finite negative u hu ∧ signed negative u = u ∧ u < limit ∧
      d = roundHalfEven (u * perSecond) one := by
  cases x with
  | nan => cases h
  | infinite => cases h
  | finite negative u hu =>
      have hsigned : signed negative u = u := by
        cases negative with
        | false => rfl
        | true =>
            by_cases h0 : u = 0
            · rw [h0]
              rfl
            · simp [ofSeconds?, h0] at h
      rw [ofSeconds?_of_signed hsigned] at h
      split at h
      · cases h
      · next hlt =>
          exact ⟨negative, u, hu, rfl, hsigned, Nat.lt_of_not_le hlt, (Option.some.inj h).symm⟩

theorem nonneg_of_ofSeconds? (h : ofSeconds? x = some d) : x.isFinite ∧ 0 ≤ x := by
  obtain ⟨negative, u, hu, rfl, hsigned, -, -⟩ := exists_of_ofSeconds? h
  refine ⟨rfl, ?_⟩
  rw [zero_eq, finite_le_finite, hsigned]
  exact Int.natCast_nonneg u

/-- More seconds are not read as less time. -/
theorem ofSeconds?_mono (h0 : 0 ≤ x) (h : x ≤ y) (hy : ofSeconds? y = some e) :
    ∃ d, ofSeconds? x = some d ∧ d ≤ e := by
  obtain ⟨t, v, hv, rfl, ht, hlt, he⟩ := exists_of_ofSeconds? hy
  rcases exists_of_nonneg h0 with rfl | ⟨s, u, hu, rfl, hs⟩
  · cases h
  · rw [finite_le_finite, hs, ht, Int.ofNat_le] at h
    have hnot : ¬ limit ≤ u := fun hle => Nat.not_lt_of_le (Nat.le_trans hle h) hlt
    refine ⟨_, by rw [ofSeconds?_of_signed hs, if_neg hnot], ?_⟩
    rw [he]
    exact roundHalfEven_mono Binary64.one_pos Binary64.one_pos
      (Nat.mul_le_mul_right _ (Nat.mul_le_mul_right _ h))

theorem ofSeconds?_of_not_pos (h0 : 0 ≤ x) (h : ¬ 0 < x) : ofSeconds? x = some 0 := by
  rcases exists_of_nonneg h0 with rfl | ⟨s, u, hu, rfl, -⟩
  · exact absurd zero_lt_infinite h
  · rcases Nat.eq_zero_or_pos u with rfl | hpos
    · rfl
    · cases s with
      | false => exact absurd (zero_lt_finite hpos) h
      | true =>
          rw [zero_eq, finite_le_finite, signed_true, signed_false] at h0
          omega

/-! ## Times that are too long -/

/-- The last double that is read as a time, in seconds. -/
def lastRead : Nat := Nat.pow 2 64 - 2048

theorem lastRead_mul_one : lastRead * one = (Nat.pow 2 53 - 1) * (Nat.pow 2 64 * grain) := by
  have hscale : lastRead * Nat.pow 2 53 = (Nat.pow 2 53 - 1) * Nat.pow 2 64 := by decide
  rw [one_eq_grain, ← Nat.mul_assoc, hscale, Nat.mul_assoc]

theorem limit_eq_grain : limit = Nat.pow 2 53 * (Nat.pow 2 64 * grain) := by
  rw [limit, one_eq_grain, Nat.mul_left_comm]

theorem lastRead_lt_limit : lastRead * one < limit :=
  Nat.mul_lt_mul_of_pos_right (by decide) Binary64.one_pos

theorem aligned_lastRead : spacing (lastRead * one) ∣ lastRead * one := by
  rw [lastRead_mul_one, two_pow_mul_grain]
  exact spacing_dvd_mul_pow (by decide)

theorem le_lastRead (hu : Representable u) (h : u < limit) : u ≤ lastRead * one := by
  refine Nat.le_of_not_lt fun hgt => ?_
  have hstart : Nat.pow 2 63 ≤ lastRead := by decide
  have hbinade : Nat.pow 2 63 * one ≤ u :=
    Nat.le_trans (Nat.mul_le_mul_right one hstart) (Nat.le_of_lt hgt)
  obtain ⟨m, hm⟩ := Nat.dvd_trans (grain_dvd_spacing hbinade) hu.aligned
  simp only [Nat.reduceAdd] at hm
  rw [hm, limit_eq_grain, Nat.mul_comm _ m] at h
  rw [hm, lastRead_mul_one, Nat.mul_comm _ m] at hgt
  have hlow : m < Nat.pow 2 53 := Nat.lt_of_mul_lt_mul_right h
  have hhigh : Nat.pow 2 53 - 1 < m := Nat.lt_of_mul_lt_mul_right hgt
  exact Nat.not_lt_of_le (Nat.le_of_pred_lt hhigh) hlow

theorem ofSeconds?_le (h : ofSeconds? x = some d) : d ≤ seconds lastRead := by
  obtain ⟨negative, u, hu, -, -, hlt, hd⟩ := exists_of_ofSeconds? h
  have hlast : seconds lastRead = roundHalfEven (lastRead * one * perSecond) one := by
    rw [Nat.mul_right_comm, roundHalfEven_mul _ Binary64.one_pos, seconds]
  rw [hd, hlast]
  exact roundHalfEven_mono Binary64.one_pos Binary64.one_pos
    (Nat.mul_le_mul_right _ (Nat.mul_le_mul_right _ (le_lastRead hu hlt)))

theorem nearest_succ_lastRead : nearest ((lastRead + 1) * one) 1 = lastRead * one := by
  have hbinade : Nat.pow 2 63 * one ≤ (lastRead + 1) * one := Nat.mul_le_mul_right one (by decide)
  have hspacing := Nat.le_of_dvd (spacing_pos _) (grain_dvd_spacing hbinade)
  have hpow : Nat.pow 2 (63 + 1) = 18446744073709551616 := rfl
  rw [hpow] at hspacing
  have hone := one_eq_mul_grain
  have hgrain := grain_pos
  rw [Nat.add_mul, Nat.one_mul] at hspacing ⊢
  exact nearest_eq_of_near aligned_lastRead (by omega) (by omega)

/-- The seconds of a time that is not longer are finite, and few enough to be read. -/
theorem toSeconds_of_le (h : d ≤ seconds lastRead) :
    nearest (units d) 1 < limit ∧ ∃ hu, d.toSeconds = finite false (nearest (units d) 1) hu := by
  have hwhole : nearest (d / perSecond * one) 1 ≤ lastRead * one := by
    refine nearest_le_of_le aligned_lastRead Nat.one_pos ?_
    rw [Nat.mul_one]
    refine Nat.mul_le_mul_right one ?_
    rw [Nat.div_le_iff_le_mul_add_pred (by decide), Nat.mul_comm]
    exact Nat.le_trans h (Nat.le_add_right _ _)
  have hunits : units d ≤ (lastRead + 1) * one := by
    rw [units, Nat.add_mul, Nat.one_mul]
    exact Nat.add_le_add hwhole (Nat.le_of_lt (fraction_lt (Nat.mod_lt d (by decide))))
  have hread : nearest (units d) 1 < limit := by
    calc nearest (units d) 1 ≤ nearest ((lastRead + 1) * one) 1 :=
          nearest_mono Nat.one_pos Nat.one_pos (Nat.mul_le_mul_right 1 hunits)
      _ = lastRead * one := nearest_succ_lastRead
      _ < limit := lastRead_lt_limit
  have hrange : nearest (units d) 1 < overflow := Nat.lt_trans hread limit_lt_overflow
  have hsmall : nearest (d / perSecond * one) 1 < overflow :=
    Nat.lt_of_le_of_lt hwhole (Nat.lt_trans lastRead_lt_limit limit_lt_overflow)
  refine ⟨hread, ⟨hrange, aligned_nearest _ _⟩, ?_⟩
  rw [toSeconds_eq hsmall, ofQuotient, dif_pos hrange]

theorem ofSeconds?_toSeconds (h : d ≤ seconds lastRead) :
    ofSeconds? d.toSeconds = some (roundHalfEven (nearest (units d) 1 * perSecond) one) := by
  obtain ⟨hread, hu, heq⟩ := toSeconds_of_le h
  rw [heq, ofSeconds?_of_signed (signed_false _), if_neg (Nat.not_le_of_lt hread)]

/-- A time whose seconds are not read is longer than all that are. -/
theorem le_of_ofSeconds?_toSeconds (hd : ofSeconds? d.toSeconds = none)
    (he : ofSeconds? x = some e) : e ≤ d := by
  refine Nat.le_of_not_lt fun hlt => ?_
  have hle : d ≤ seconds lastRead := Nat.le_trans (Nat.le_of_lt hlt) (ofSeconds?_le he)
  rw [ofSeconds?_toSeconds hle] at hd
  cases hd

/-! ## There and back -/

/-- The time is read back from its own seconds. -/
def ReadsBack (d : Nanos) : Prop := ofSeconds? d.toSeconds = some d

theorem units_of_lt (h : d < seconds (Nat.pow 2 53)) :
    units d = d / perSecond * one + fraction (d % perSecond) := by
  have hwhole : d / perSecond < Nat.pow 2 53 := Nat.div_lt_of_lt_mul (by rwa [Nat.mul_comm])
  have hself := nearest_mul (representable_ofNat hwhole).aligned Nat.one_pos
  rw [Nat.mul_one] at hself
  rw [units, hself]

theorem units_lt (hn : n ≤ Nat.pow 2 53) (h : d < seconds n) : units d < n * one := by
  have hwhole : d / perSecond < n := Nat.div_lt_of_lt_mul (by rwa [Nat.mul_comm])
  have hd : d < seconds (Nat.pow 2 53) := Nat.lt_of_lt_of_le h (Nat.mul_le_mul_right _ hn)
  calc units d = d / perSecond * one + fraction (d % perSecond) := units_of_lt hd
    _ < d / perSecond * one + one :=
        Nat.add_lt_add_left (fraction_lt (Nat.mod_lt d (by decide))) _
    _ = (d / perSecond + 1) * one := by rw [Nat.add_mul, Nat.one_mul]
    _ ≤ n * one := Nat.mul_le_mul_right one hwhole

theorem le_units (h : seconds n ≤ d) (hd : d < seconds (Nat.pow 2 53)) : n * one ≤ units d := by
  calc n * one ≤ d / perSecond * one :=
        Nat.mul_le_mul_right one ((Nat.le_div_iff_mul_le (by decide)).mpr h)
    _ ≤ d / perSecond * one + fraction (d % perSecond) := Nat.le_add_right _ _
    _ = units d := (units_of_lt hd).symm

theorem units_error {d : Nat} (h : d < seconds (Nat.pow 2 53)) :
    2 * (units d * perSecond) ≤ 2 * (d * one) + perSecond * grain ∧
      2 * (d * one) ≤ 2 * (units d * perSecond) + perSecond * grain := by
  have hr : d % perSecond < perSecond := Nat.mod_lt d (by decide)
  have hspacing : spacing (d % perSecond * one / perSecond) ≤ grain :=
    spacing_le_of_lt_one
      (Nat.div_lt_of_lt_mul (Nat.mul_lt_mul_of_pos_right hr Binary64.one_pos))
  have hscaled := Nat.mul_le_mul_left perSecond hspacing
  obtain ⟨hover, hunder⟩ := nearest_error (d % perSecond * one) (by decide : 0 < perSecond)
  have hsplit : d * one = d / perSecond * one * perSecond + d % perSecond * one := by
    rw [Nat.mul_right_comm, ← Nat.add_mul, Nat.mul_comm _ perSecond, Nat.div_add_mod]
  rw [units_of_lt h, Nat.add_mul, hsplit, fraction]
  omega

/-- Below `2 ^ 23` seconds a double is nearer to its time than half a nanosecond. -/
theorem readsBack_of_lt (h : d < seconds (Nat.pow 2 23)) : ReadsBack d := by
  have hd : d < seconds (Nat.pow 2 53) := Nat.lt_trans h (by decide)
  have hle : d ≤ seconds lastRead := Nat.le_trans (Nat.le_of_lt hd) (by decide)
  have hspacing := spacing_le_grain (units_lt (by decide) h)
  have hpow : Nat.pow 2 23 = 8388608 := rfl
  rw [hpow] at hspacing
  have hone := one_eq_mul_grain
  have hgrain := grain_pos
  obtain ⟨hover, hunder⟩ := units_error hd
  have hrounded := nearest_error (units d) Nat.one_pos
  rw [Nat.div_one, Nat.one_mul, Nat.mul_one] at hrounded
  have hper : perSecond = 1000000000 := rfl
  rw [hper] at hover hunder
  rw [ReadsBack, ofSeconds?_toSeconds hle, roundHalfEven_eq_of_near]
  · rw [hper]
    omega
  · rw [hper]
    omega

/-- From there on a double that was read as the time is still the nearest one to it. -/
theorem readsBack_of_ofSeconds? (h : ofSeconds? x = some d) (hd : d < seconds (Nat.pow 2 53)) :
    ReadsBack d := by
  rcases Nat.lt_or_ge d (seconds (Nat.pow 2 23)) with hlow | hhigh
  · exact readsBack_of_lt hlow
  · obtain ⟨negative, u, hu, -, -, -, hread⟩ := exists_of_ofSeconds? h
    have hspacing := Nat.le_of_dvd (spacing_pos _) (grain_dvd_spacing (le_units hhigh hd))
    have hpow : Nat.pow 2 (23 + 1) = 16777216 := rfl
    rw [hpow] at hspacing
    have hone := one_eq_mul_grain
    have hgrain := grain_pos
    obtain ⟨hover, hunder⟩ := units_error hd
    have herror := roundHalfEven_error (u * perSecond) Binary64.one_pos
    rw [← hread] at herror
    have hper : perSecond = 1000000000 := rfl
    rw [hper] at hover hunder herror
    have hnearest : nearest (units d) 1 = u :=
      nearest_eq_of_near hu.aligned (by omega) (by omega)
    rw [ReadsBack, ofSeconds?_toSeconds (Nat.le_trans (Nat.le_of_lt hd) (by decide)), hnearest,
      hread]

/-- The time as its seconds give it; a time that is too long to be read stays as it is. -/
def viaSeconds (d : Nanos) : Nanos := (ofSeconds? d.toSeconds).getD d

theorem ReadsBack.viaSeconds_eq (h : ReadsBack d) : d.viaSeconds = d := by
  rw [viaSeconds, h, Option.getD_some]

theorem viaSeconds_eq_zero_iff : d.viaSeconds = 0 ↔ d = 0 := by
  rcases Nat.lt_or_ge d (seconds 1) with hlow | hhigh
  · rw [(readsBack_of_lt (Nat.lt_trans hlow (by decide))).viaSeconds_eq]
  · have hpos : 0 < d := Nat.lt_of_lt_of_le (by decide) hhigh
    refine ⟨fun h => ?_, fun h => absurd h hpos.ne'⟩
    cases hread : ofSeconds? d.toSeconds with
    | none =>
        rw [viaSeconds, hread, Option.getD_none] at h
        exact h
    | some e =>
        have hone : ofSeconds? 1 = some (seconds 1) := ofSeconds?_ofNat (by decide)
        obtain ⟨second, hsecond, hle⟩ :=
          ofSeconds?_mono (nonneg_of_pos Binary64.zero_lt_one) (one_le_toSeconds hhigh) hread
        rw [hone] at hsecond
        rw [viaSeconds, hread, Option.getD_some] at h
        rw [h, ← Option.some.inj hsecond] at hle
        exact absurd hle (by decide)

/-! ## Sums of times -/

/-- The sum of two times, unless it is longer than the longest time. -/
def plus? (d e : Nanos) : Option Nanos := if d + e ≤ longest then some (d + e) else none

theorem plus?_of_le (h : d + e ≤ longest) : d.plus? e = some (d + e) := if_pos h

theorem seconds_lastRead_le_longest : seconds lastRead ≤ longest := by decide

/-! ## Configured times -/

/-- A time as settings can give it. -/
structure Configured (d : Nanos) : Prop where
  readsBack : ReadsBack d
  le_year : d ≤ year

theorem configured_of_lt (h : d < seconds (Nat.pow 2 23)) : Configured d :=
  ⟨readsBack_of_lt h, Nat.le_of_lt (Nat.lt_of_lt_of_le h (by decide))⟩

theorem configured_year : Configured year := by
  have hread : ofSeconds? (ofNat (86400 * 365)) = some year := ofSeconds?_ofNat (by decide)
  exact ⟨readsBack_of_ofSeconds? hread (by decide), Nat.le_refl _⟩

theorem Configured.max (hd : Configured d) (he : Configured e) : Configured (Max.max d e) := by
  rcases Nat.le_total d e with hle | hge
  · rwa [Nat.max_eq_right hle]
  · rwa [Nat.max_eq_left hge]

theorem configured_ofConfigured (x : Binary64) : Configured (ofConfigured x) := by
  unfold ofConfigured
  split
  · split
    · next d hd =>
        rcases Nat.le_total d year with hle | hge
        · rw [Nat.min_eq_left hle]
          exact ⟨readsBack_of_ofSeconds? hd (Nat.lt_of_le_of_lt hle (by decide)), hle⟩
        · rw [Nat.min_eq_right hge]
          exact configured_year
    · exact configured_year
  · exact configured_of_lt (by decide)

theorem Configured.ofConfigured_toSeconds (h : Configured d) : ofConfigured d.toSeconds = d := by
  unfold ofConfigured
  rw [h.readsBack]
  split
  · exact Nat.min_eq_left h.le_year
  · next hpos =>
      have hzero := ofSeconds?_of_not_pos (toSeconds_nonneg d) hpos
      rw [h.readsBack] at hzero
      exact (Option.some.inj hzero).symm

end Settle.Nanos
