import Settle.Policy
import Settle.Proofs.Number.Power
import Settle.Proofs.Time

/-! # Delays

A delay is the initial delay times a power of the factor, in seconds, or the ceiling if that is less.
Both are taken to doubles and back. Where the power is out of range and the initial delay is zero,
their product is no number, and the ceiling is left. -/

namespace Settle.Policy

open Binary64

variable {p : Policy} {n m : Nat}

/-- The power of the factor in a delay. -/
def power (p : Policy) (retry : Nat) : Binary64 :=
  p.factor.pow (min (retry - 1) (Nat.pow 2 31 - 1))

/-- The seconds of a delay before the ceiling is applied. -/
def grown (p : Policy) (retry : Nat) : Binary64 := p.initial.toSeconds * p.power retry

def capped (p : Policy) (retry : Nat) : Binary64 :=
  (p.grown retry).lesser p.ceiling.toSeconds

theorem delay_eq (p : Policy) (retry : Nat) :
    p.delay retry = (Nanos.ofSeconds? (p.capped retry)).getD p.ceiling := by
  have hdelay : p.delay retry = if (p.capped retry).isFinite ∧ 0 ≤ p.capped retry then
      (Nanos.ofSeconds? (p.capped retry)).getD p.ceiling else p.ceiling := by
    rw [delay, capped, grown, power]
  rw [hdelay]
  split
  · rfl
  · next h =>
      cases hread : Nanos.ofSeconds? (p.capped retry) with
      | none => rfl
      | some d => exact absurd (Nanos.nonneg_of_ofSeconds? hread) h

theorem normalized_factor (budget initial ceiling : Nanos) (factor : Binary64) (jitter : Bool) :
    (normalized budget initial ceiling factor jitter).factor.isFinite ∧
      1 ≤ (normalized budget initial ceiling factor jitter).factor := by
  simp only [normalized]
  split
  · assumption
  · exact ⟨one_isFinite, Binary64.one_le_one⟩

/-! ## Delays never shrink -/

theorem one_le_power (h : 1 ≤ p.factor) (retry : Nat) : 1 ≤ p.power retry := one_le_pow h

theorem power_mono (h : 1 ≤ p.factor) (hle : n ≤ m) : p.power n ≤ p.power m :=
  pow_le_pow h (by omega)

/-- An initial delay grows with the power, unless it is zero and the power is out of range. -/
theorem grown_mono (h : 1 ≤ p.factor) (hle : n ≤ m) :
    p.grown m = nan ∨ 0 ≤ p.grown n ∧ p.grown n ≤ p.grown m := by
  have hn : 0 < p.power n := pos_of_one_le (one_le_power h n)
  have hpower : p.power n ≤ p.power m := power_mono h hle
  rcases Nanos.toSeconds_pos_or_zero p.initial with hpos | hzero
  · have hself := le_self_of_le (nonneg_of_pos hpos)
    have hinitial : p.initial.toSeconds * 1 ≤ p.grown n :=
      Binary64.mul_le_mul hpos Binary64.zero_lt_one hself (one_le_power h n)
    rw [Binary64.mul_one] at hinitial
    exact .inr ⟨nonneg_of_pos (pos_of_le hpos hinitial), Binary64.mul_le_mul hpos hn hself hpower⟩
  · rw [grown, grown, hzero]
    rcases pos_cases (pos_of_le hn hpower) with hinfinite | ⟨u, hu, hfinite, -⟩
    · rw [hinfinite]
      exact .inl zero_mul_infinite
    · obtain ⟨v, hv, hbelow, -⟩ := finite_of_le hn (hfinite ▸ hpower)
      rw [hfinite, hbelow, zero_mul_finite, zero_mul_finite]
      exact .inr ⟨zero_le_zero, zero_le_zero⟩

theorem ceiling_le_self (p : Policy) : p.ceiling.toSeconds ≤ p.ceiling.toSeconds :=
  le_self_of_le (Nanos.toSeconds_nonneg _)

theorem capped_le_ceiling (p : Policy) (retry : Nat) : p.capped retry ≤ p.ceiling.toSeconds :=
  lesser_le_right (ceiling_le_self p)

/-- Where the product is no number the ceiling is left, and nothing is above that. -/
theorem capped_mono (h : 1 ≤ p.factor) (hle : n ≤ m) : p.capped n ≤ p.capped m := by
  rcases grown_mono h hle with hnan | ⟨hnonneg, hgrown⟩
  · have hceiling : p.capped m = p.ceiling.toSeconds := by
      rw [capped, hnan]
      exact lesser_of_not_le (ceiling_le_self p) (by intro h; cases h)
    rw [hceiling]
    exact capped_le_ceiling p n
  · have hself := le_self_of_le hnonneg
    exact le_lesser (Binary64.le_trans (lesser_le_left hself (ceiling_le_self p)) hgrown)
      (capped_le_ceiling p n)

theorem capped_nonneg (h : 1 ≤ p.factor) (retry : Nat) : 0 ≤ p.capped retry := by
  have hceiling : 0 ≤ p.ceiling.toSeconds := Nanos.toSeconds_nonneg _
  by_cases hle : p.grown retry ≤ p.ceiling.toSeconds
  · rw [capped, lesser_of_le hle]
    rcases grown_mono h (Nat.le_refl retry) with hnan | ⟨hnonneg, -⟩
    · rw [hnan] at hle
      cases hle
    · exact hnonneg
  · rwa [capped, lesser_of_not_le (ceiling_le_self p) hle]

/-- Seconds that cannot be read leave the ceiling. Then the seconds of the ceiling cannot be read
either, and the ceiling is longer than all that can. -/
theorem delay_mono (h : 1 ≤ p.factor) (hle : n ≤ m) : p.delay n ≤ p.delay m := by
  rw [delay_eq, delay_eq]
  cases hm : Nanos.ofSeconds? (p.capped m) with
  | some e =>
      obtain ⟨d, hn, hde⟩ := Nanos.ofSeconds?_mono (capped_nonneg h n) (capped_mono h hle) hm
      rw [hn]
      exact hde
  | none =>
      have hceiling : Nanos.ofSeconds? p.ceiling.toSeconds = none := by
        cases hread : Nanos.ofSeconds? p.ceiling.toSeconds with
        | none => rfl
        | some c =>
            obtain ⟨e, he, -⟩ :=
              Nanos.ofSeconds?_mono (capped_nonneg h m) (capped_le_ceiling p m) hread
            rw [hm] at he
            cases he
      cases hn : Nanos.ofSeconds? (p.capped n) with
      | none => exact Nat.le_refl _
      | some d => exact Nanos.le_of_ofSeconds?_toSeconds hceiling hn

/-- A normalized policy never waits less before a later retry. -/
theorem normalized_delay_le_succ (budget initial ceiling : Nanos) (factor : Binary64)
    (jitter : Bool) (retry : Nat) :
    (normalized budget initial ceiling factor jitter).delay retry ≤
      (normalized budget initial ceiling factor jitter).delay (retry + 1) :=
  delay_mono (normalized_factor budget initial ceiling factor jitter).2 (Nat.le_succ retry)

/-! ## Times that are read back -/

/-- The first delay is the initial one. Were the seconds of the ceiling fewer than its own, they
would be read as no more time. -/
theorem delay_one (hinitial : p.initial.ReadsBack) (hceiling : p.ceiling.ReadsBack)
    (h : p.initial ≤ p.ceiling) : p.delay 1 = p.initial := by
  have hpower : p.power 1 = 1 := by
    rw [power, Nat.sub_self, Nat.zero_min]
    exact pow_zero p.factor
  rw [delay_eq, capped, grown, hpower, Binary64.mul_one]
  by_cases hle : p.initial.toSeconds ≤ p.ceiling.toSeconds
  · rw [lesser_of_le hle, hinitial, Option.getD_some]
  · have hself := le_self_of_le (Nanos.toSeconds_nonneg p.initial)
    obtain ⟨d, hd, hdle⟩ := Nanos.ofSeconds?_mono (Nanos.toSeconds_nonneg p.ceiling)
      ((Binary64.le_total hself (ceiling_le_self p)).resolve_left hle) hinitial
    rw [lesser_of_not_le (ceiling_le_self p) hle, hd, Option.getD_some]
    rw [hceiling] at hd
    exact Nat.le_antisymm hdle (Option.some.inj hd ▸ h)

theorem delay_le_ceiling (h : 1 ≤ p.factor) (hceiling : p.ceiling.ReadsBack) (retry : Nat) :
    p.delay retry ≤ p.ceiling := by
  obtain ⟨d, hd, hle⟩ :=
    Nanos.ofSeconds?_mono (capped_nonneg h retry) (capped_le_ceiling p retry) hceiling
  rwa [delay_eq, hd, Option.getD_some]

theorem delay_of_flat (h : 1 ≤ p.factor) (hceiling : p.ceiling.ReadsBack)
    (hflat : p.initial = p.ceiling) (retry : Nat) : p.delay retry = p.ceiling := by
  have hone : p.delay 1 = p.ceiling := by
    rw [delay_one (hflat ▸ hceiling) hceiling (Nat.le_of_eq hflat), hflat]
  refine Nat.le_antisymm (delay_le_ceiling h hceiling retry) ?_
  cases retry with
  | zero => exact Nat.le_of_eq hone.symm
  | succ n => exact hone ▸ delay_mono h (Nat.le_add_left 1 n)

/-! ## Delays from zero -/

theorem power_eq_infinite (h : 1 ≤ p.factor) (hinfinite : ¬ (p.power n).isFinite) :
    p.power n = infinite false := by
  rcases pos_cases (pos_of_one_le (one_le_power h n)) with hpower | ⟨u, hu, hpower, -⟩
  · exact hpower
  · rw [hpower] at hinfinite
    exact absurd rfl hinfinite

theorem delay_of_finite (hzero : p.initial = 0) (h : 1 ≤ p.factor)
    (hfinite : (p.power n).isFinite) : p.delay n = 0 := by
  obtain ⟨u, hu, hpower, -⟩ := exists_of_pos hfinite (pos_of_one_le (one_le_power h n))
  have hgrown : p.grown n = 0 := by
    rw [grown, hzero, Nanos.toSeconds_zero, hpower, zero_mul_finite]
  have hread : Nanos.ofSeconds? 0 = some 0 := Nanos.ofSeconds?_ofNat (by decide)
  rw [delay_eq, capped, hgrown, lesser_of_le (Nanos.toSeconds_nonneg _), hread, Option.getD_some]

theorem delay_of_infinite (hzero : p.initial = 0) (h : p.power n = infinite false) :
    p.delay n = p.ceiling.viaSeconds := by
  have hgrown : p.grown n = nan := by
    rw [grown, hzero, Nanos.toSeconds_zero, h, zero_mul_infinite]
  rw [delay_eq, capped, hgrown, lesser_of_not_le (ceiling_le_self p) (by intro h; cases h)]
  rfl

theorem next_of_delay_eq_zero (h : p.delay n = 0) (draw : Binary64) (elapsed : Nanos) :
    p.next draw n elapsed = if p.budget ≤ elapsed then .giveUp else .retryAfter 0 := by
  have hjittered : jittered draw 0 = 0 := rfl
  simp only [next, h, hjittered, ite_self]

/-- How long a policy without an initial delay waits before a retry. -/
structure WaitsFromZero (p : Policy) (retry : Nat) : Prop where
  zero_iff : p.delay retry = 0 ↔ p.ceiling = 0 ∨ (p.power retry).isFinite
  leaps : ¬ (p.power retry).isFinite → ∀ later, retry ≤ later →
    p.delay later = p.ceiling.viaSeconds
  waits : ∀ draw elapsed wait, p.next draw retry elapsed = .retryAfter wait → 0 < wait →
    ¬ (p.power retry).isFinite

/-- A zero initial delay stays zero while the power of the factor is in range. Past that every delay
is the ceiling. -/
theorem normalized_waitsFromZero (budget ceiling : Nanos) (factor : Binary64) (jitter : Bool)
    (retry : Nat) : WaitsFromZero (normalized budget 0 ceiling factor jitter) retry := by
  have hfactor := (normalized_factor budget 0 ceiling factor jitter).2
  have hinitial : (normalized budget 0 ceiling factor jitter).initial = 0 := rfl
  generalize normalized budget 0 ceiling factor jitter = p at hfactor hinitial
  have hleaps (h : ¬ (p.power retry).isFinite) (later : Nat) (hlater : retry ≤ later) :
      p.delay later = p.ceiling.viaSeconds := by
    have hle := power_mono hfactor hlater
    rw [power_eq_infinite hfactor h] at hle
    exact delay_of_infinite hinitial (eq_infinite_of_le hle)
  refine ⟨?_, hleaps, fun draw elapsed wait hnext hwait hfinite => ?_⟩
  · by_cases hfinite : (p.power retry).isFinite
    · exact ⟨fun _ => .inr hfinite, fun _ => delay_of_finite hinitial hfactor hfinite⟩
    · rw [hleaps hfinite retry (Nat.le_refl _), Nanos.viaSeconds_eq_zero_iff]
      exact ⟨.inl, fun h => h.resolve_right hfinite⟩
  · rw [next_of_delay_eq_zero (delay_of_finite hinitial hfactor hfinite)] at hnext
    split at hnext
    · cases hnext
    · exact Nat.lt_irrefl 0 (Decision.retryAfter.inj hnext ▸ hwait)

/-- Doubled from zero, the delay leaps to the ceiling with the first power of two that is past all
doubles. -/
theorem doubling_delay_leaps :
    (normalized (.seconds 60) 0 (.seconds 10) 2 false).delay 1024 = 0 ∧
      (normalized (.seconds 60) 0 (.seconds 10) 2 false).delay 1025 = .seconds 10 ∧
      (normalized (.seconds 60) 0 (.seconds 10) 2 false).next 0 1025 0 =
        .retryAfter (.seconds 10) := by
  decide +kernel

end Settle.Policy
