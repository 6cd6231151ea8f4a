import Settle.Proofs.Limiter.Idle
import Settle.Proofs.Number.Whole

/-! # Which limits make callers wait

A limit is kept by a bucket that fills at its rate, raised to the lowest one. Reservations at one
point in time take the bucket down token by token until somebody waits, unless the rate is so high
that one token less is rounded back up. -/

namespace Settle

namespace Bucket

variable {κ : Type} [Add κ] [Sub κ] [Mul κ] [Min κ] [OfNat κ 1]

/-- What holds of the first bucket and is kept by every take holds of all buckets of a row. -/
theorem serve_forall {P : Bucket κ → Prop} {seconds : Nanos → κ} {rate : κ}
    {bucket? : Option (Bucket κ)} {times : List Nanos}
    (htake : ∀ b now, P b → P (b.take seconds now))
    (hfirst : ∀ now, P (bucket?.getD (.full rate now))) :
    ∀ b ∈ serve seconds rate bucket? times, P b := by
  induction times generalizing bucket? with
  | nil => exact nofun
  | cons now times ih =>
      have hhead := htake _ now (hfirst now)
      exact List.forall_mem_cons.mpr ⟨hhead, ih fun _ => hhead⟩

end Bucket

namespace Limiter

open Binary64

variable {l : Limiter} {action : String} {now : Nanos} {b : Bucket Binary64} {rate : Binary64}
  {bucket? : Option (Bucket Binary64)} {times : List Nanos} {u : Nat} {hu : Representable u}
  {z : Int}

/-- No row of reservations makes a caller of the action wait. -/
def NeverDelays (l : Limiter) (action : String) : Prop :=
  ∀ history wait, (action, wait) ∈ l.waits history [] → wait = 0

/-- The bucket of the action fills at this rate, as soon as the action is reserved. -/
def FillsAt (l : Limiter) (action : String) (rate : Binary64) : Prop :=
  ∀ history, action ∈ history.map Prod.fst →
    ∃ b, (l.served history).lookup action = some b ∧ b.rate = rate

/-! ## The waits of one action -/

theorem mem_waits_iff (l : Limiter) (action : String) (history : List (String × Nanos))
    (buckets : Buckets) (wait : Nanos) : (action, wait) ∈ l.waits history buckets ↔
      wait ∈ l.ownWaits action (buckets.lookup action)
        ((history.filter (·.1 = action)).map Prod.snd) := by
  calc (action, wait) ∈ l.waits history buckets
      ↔ (action, wait) ∈ (l.waits history buckets).filter (·.1 = action) := by simp
    _ ↔ _ := by simp [waits_filter]

theorem neverDelays_iff_ownWaits :
    l.NeverDelays action ↔ ∀ times, ∀ wait ∈ l.ownWaits action none times, wait = 0 := by
  constructor
  · intro h times wait hwait
    have htimes : ((times.map (action, ·)).filter (·.1 = action)).map Prod.snd = times := by
      rw [List.filter_eq_self.mpr (by simp), List.map_map]
      exact List.map_id times
    refine h (times.map (action, ·)) wait ((mem_waits_iff ..).mpr ?_)
    rw [htimes]
    exact hwait
  · intro h history wait hwait
    exact h _ wait ((mem_waits_iff ..).mp hwait)

/-! ## Buckets that are never taken down -/

theorem refill_nonneg (d : Nanos) (h0 : 0 < u) : 0 ≤ d.toSeconds * finite false u hu := by
  rcases d.toSeconds_pos_or_zero with hd | hd
  · rcases pos_cases hd with hd | ⟨v, hv, hd, -⟩
    · rw [hd, infinite_mul (zero_lt_finite h0)]
      exact nonneg_of_pos zero_lt_infinite
    · rw [hd, finite_mul_finite]
      exact ofQuotient_nonneg Binary64.one_pos
  · rw [hd]
    exact zero_mul_nonneg

theorem le_take_tokens (h0 : 0 < u) (hrate : b.rate = finite false u hu)
    (hfull : undiminished ≤ b.rate) (htokens : undiminished ≤ b.tokens) (now : Nanos) :
    undiminished ≤ (b.take Nanos.toSeconds now).tokens := by
  obtain ⟨hv, hbound⟩ := undiminished_eq
  rw [Bucket.take_tokens, refilled_eq]
  refine le_sub_one (le_lesser ?_ hfull)
  rw [hbound] at htokens ⊢
  refine le_add_of_nonneg (Nat.mul_pos (by decide) Binary64.one_pos) htokens ?_
  rw [hrate]
  exact refill_nonneg _ h0

theorem turn_serve_of_undiminished (h0 : 0 < u) (hfull : undiminished ≤ finite false u hu) :
    ∀ b ∈ Bucket.serve Nanos.toSeconds (finite false u hu) none times, turn b = 0 := by
  have hkept : ∀ b ∈ Bucket.serve Nanos.toSeconds (finite false u hu) none times,
      b.rate = finite false u hu ∧ undiminished ≤ b.tokens := by
    refine Bucket.serve_forall (fun b now hb => ?_) fun now => ⟨rfl, hfull⟩
    exact ⟨hb.1, le_take_tokens h0 hb.1 (hb.1 ▸ hfull) hb.2 now⟩
  intro b hb
  exact turn_of_nonneg (Binary64.le_trans (nonneg_of_pos undiminished_pos) (hkept b hb).2)

/-! ## Buckets that are taken down -/

theorem take_tokens_le (hrate : b.rate = finite false u hu) (hz : z.natAbs ≤ Nat.pow 2 53)
    (htokens : b.tokens ≤ ofInt z) (hupdated : b.updated = now) :
    (b.take Nanos.toSeconds now).tokens ≤ ofInt (z - 1) := by
  have hheld : Representable (z.natAbs * one) := representable_whole hz
  rw [Bucket.take_tokens, refilled_eq, hupdated, Nat.sub_self, Nanos.toSeconds_zero, hrate,
    zero_mul_finite]
  refine sub_one_le hheld ?_
  have hunfilled : b.tokens + 0 ≤ ofInt z := add_zero_le hheld htokens
  have hself : finite false u hu ≤ finite false u hu := finite_le_finite.mpr (Int.le_refl _)
  exact Binary64.le_trans (lesser_le_left (le_self_of_ge hunfilled) hself) hunfilled

theorem exists_tokens_le {n : Nat} (rate : Binary64) (hrate : b.rate = finite false u hu)
    (hz : z.natAbs ≤ Nat.pow 2 53) (hn : (z - n).natAbs ≤ Nat.pow 2 53)
    (htokens : b.tokens ≤ ofInt z) (hupdated : b.updated = now) :
    ∃ c ∈ Bucket.serve Nanos.toSeconds rate (some b) (List.replicate (n + 1) now),
      c.rate = finite false u hu ∧ c.tokens ≤ ofInt (z - n - 1) := by
  induction n generalizing b z with
  | zero =>
      have htake := take_tokens_le hrate hz htokens hupdated
      refine ⟨b.take Nanos.toSeconds now, List.mem_cons_self, hrate, ?_⟩
      rwa [Int.natCast_zero, Int.sub_zero]
  | succ n ih =>
      have htake := take_tokens_le hrate hz htokens hupdated
      obtain ⟨c, hc, hcrate, hctokens⟩ :=
        ih (b := b.take Nanos.toSeconds now) (z := z - 1) hrate (by omega) (by omega) htake rfl
      refine ⟨c, List.mem_cons_of_mem _ hc, hcrate, ?_⟩
      have hcount : z - (n + 1 : Nat) - 1 = z - 1 - n - 1 := by omega
      rwa [hcount]

theorem turn_ne_zero_of_debt (h : ofQuotient false one 4 ≤ b.debt) : turn b ≠ 0 := by
  unfold turn
  split
  · next d hd =>
      obtain ⟨e, he, hle⟩ := Nanos.ofSeconds?_mono (ofQuotient_nonneg (by decide)) h hd
      have hread : Nanos.ofSeconds? (ofQuotient false one 4) = some (.millis 250) := by
        decide +kernel
      rw [hread, Option.some.injEq] at he
      have hpos : 0 < e := by
        rw [← he]
        decide
      have hyear : 0 < Nanos.year := by decide
      lia
  · decide

/-- The units of a debt of `2 ^ 52` tokens, which buckets that can lose a token gain at most four
times in a second. -/
theorem exists_large_debt : ∃ t ht, ofInt (-(Nat.pow 2 52 : Nat)) = finite true t ht ∧ 0 < t ∧
    (Nat.pow 2 53 + 4) * one ≤ 4 * t := by
  refine ⟨Nat.pow 2 52 * one, representable_ofNat (by decide), ?_, ?_, ?_⟩
  · rw [ofInt_neg_natCast (by decide), ofNat_of_lt (by decide)]
    rfl
  · exact Nat.mul_pos (by decide) Binary64.one_pos
  · rw [← Nat.mul_assoc]
    exact Nat.mul_le_mul_right one (by decide)

theorem turn_ne_zero (hrate : b.rate = finite false u hu) (h0 : 0 < u)
    (hsmall : finite false u hu < undiminished)
    (htokens : b.tokens ≤ ofInt (-(Nat.pow 2 52 : Nat))) : turn b ≠ 0 := by
  obtain ⟨t, ht, hdebt, ht0, hbound⟩ := exists_large_debt
  have hopposite : -finite true t ht = finite false t ht := rfl
  rw [hdebt] at htokens
  have hnegative : ¬ 0 ≤ b.tokens := by
    intro h
    have hbelow := Binary64.le_trans h htokens
    rw [zero_eq, finite_le_finite, signed_false, signed_true] at hbelow
    omega
  have howed : finite false t ht ≤ -b.tokens := by
    have hneg := Binary64.neg_le_neg htokens
    rwa [hopposite] at hneg
  refine turn_ne_zero_of_debt ?_
  rw [Bucket.debt, if_neg hnegative, hrate]
  rcases exists_of_le ht0 howed with hall | ⟨v, hv, heq, hle⟩
  · have hquotient : infinite false / finite false u hu = infinite false := rfl
    rw [hall, hquotient]
    exact le_infinite (ofQuotient_mono (by decide) (by decide) (Nat.le_refl _))
  · rw [heq, finite_div_finite h0]
    refine ofQuotient_mono (by decide) h0 ?_
    have hrates : u ≤ 4 * v := by
      have hmost := (finite_lt_undiminished.mp hsmall).le
      exact Nat.le_trans hmost (Nat.le_trans hbound (Nat.mul_le_mul_left 4 hle))
    calc one * u ≤ one * (4 * v) := Nat.mul_le_mul_left one hrates
      _ = v * one * 4 := by rw [Nat.mul_comm 4, ← Nat.mul_assoc, Nat.mul_comm one]

theorem exists_wait (h0 : 0 < u) (hrate : l.rate? action = some (finite false u hu))
    (hsmall : finite false u hu < undiminished) :
    ∃ times, ∃ wait ∈ l.ownWaits action none times, wait ≠ 0 := by
  have hfirst : ((Bucket.full (finite false u hu) 0).take Nanos.toSeconds 0).tokens ≤
      ofInt (Nat.pow 2 53 : Nat) := by
    rw [Bucket.take_tokens, refilled_full h0]
    exact sub_one_le_of_lt (zero_lt_finite h0) hsmall
  -- So many takes lead from `2 ^ 53` tokens to a debt of `2 ^ 52`, where every step is exact.
  obtain ⟨c, hc, hcrate, hctokens⟩ := exists_tokens_le (n := Nat.pow 2 53 + Nat.pow 2 52 - 1)
    (finite false u hu) rfl (by decide) (by decide) hfirst rfl
  refine ⟨0 :: List.replicate (Nat.pow 2 53 + Nat.pow 2 52 - 1 + 1) 0, turn c, ?_,
    turn_ne_zero hcrate h0 hsmall hctokens⟩
  rw [ownWaits, hrate]
  exact List.mem_map_of_mem (List.mem_cons_of_mem _ hc)

/-! ## Limits -/

/-- A limiter makes callers of an action wait in some row of reservations if and only if the limit
is above zero and low enough for a full bucket to lose a token. -/
theorem neverDelays_iff : l.NeverDelays action ↔
    ¬ (0 < l.limitFor action ∧ l.limitFor action < undiminished) := by
  rw [neverDelays_iff_ownWaits]
  by_cases hlimited : (l.limitFor action).isFinite ∧ 0 < l.limitFor action
  · obtain ⟨v, hv, u, hu, hlimit, hfill, hmax⟩ := exists_fillRate_eq hlimited.1 hlimited.2
    have hrate := rate?_eq_some hlimited.1 hlimited.2
    rw [hfill] at hrate
    have h0 : 0 < u := by
      rw [hmax]
      exact Nat.lt_of_lt_of_le lowestUnits_pos (Nat.le_max_right _ _)
    rw [and_iff_right hlimited.2, hlimit, finite_lt_undiminished, Nat.not_lt]
    constructor
    · intro h
      by_contra hlt
      have hsmall : finite false u hu < undiminished := by
        rw [finite_lt_undiminished, hmax]
        refine Nat.max_lt.mpr ⟨Nat.lt_of_not_le hlt, ?_⟩
        exact Nat.lt_of_lt_of_le lowestUnits_lt_one (Nat.le_mul_of_pos_left one (by decide))
      obtain ⟨times, wait, hwait, hne⟩ := exists_wait h0 hrate hsmall
      exact hne (h times wait hwait)
    · intro hle times wait hwait
      have hfull : undiminished ≤ finite false u hu := by
        rw [undiminished_le_finite, hmax]
        exact Nat.le_trans hle (Nat.le_max_left _ _)
      rw [ownWaits, hrate] at hwait
      obtain ⟨b, hb, rfl⟩ := List.mem_map.mp hwait
      exact turn_serve_of_undiminished h0 hfull b hb
  · have hnone : l.rate? action = none := if_neg hlimited
    have hwaits : ∀ times, ∀ wait ∈ l.ownWaits action none times, wait = 0 := by
      intro times wait hwait
      rw [ownWaits, hnone] at hwait
      obtain ⟨_, -, rfl⟩ := List.mem_map.mp hwait
      rfl
    exact iff_of_true hwaits fun h => hlimited ⟨isFinite_of_lt h.1 h.2, h.1⟩

theorem exists_lookup_served {history : List (String × Nanos)}
    (hrate : l.rate? action = some rate) (h : action ∈ history.map Prod.fst) :
    ∃ b, (l.served history).lookup action = some b := by
  induction history using List.reverseRecOn with
  | nil => cases h
  | append_singleton history entry ih =>
      rw [served_append_singleton]
      by_cases heq : action = entry.1
      · subst heq
        simp only [reserve, hrate, List.lookup_cons_self]
        exact ⟨_, rfl⟩
      · rw [List.map_append, List.mem_append, List.map_singleton, List.mem_singleton] at h
        rw [lookup_reserve_of_ne heq]
        exact ih (h.resolve_right heq)

theorem fillsAt_iff : l.FillsAt action rate ↔ l.rate? action = some rate := by
  constructor
  · intro h
    obtain ⟨b, hb, rfl⟩ := h [(action, 0)] List.mem_cons_self
    exact rate_of_lookup_served hb
  · intro hrate history hmem
    obtain ⟨b, hb⟩ := exists_lookup_served hrate hmem
    have hsame := rate_of_lookup_served hb
    rw [hrate, Option.some.injEq] at hsame
    exact ⟨b, hb, hsame.symm⟩

theorem fillsAt_limitFor_iff (hfinite : (l.limitFor action).isFinite)
    (hpos : 0 < l.limitFor action) :
    l.FillsAt action (l.limitFor action) ↔ lowestRate ≤ l.limitFor action := by
  obtain ⟨v, hv, u, hu, hlimit, hfill, hmax⟩ := exists_fillRate_eq hfinite hpos
  obtain ⟨hlow, hlowest⟩ := lowestRate_eq
  rw [fillsAt_iff, rate?_eq_some hfinite hpos, Option.some.injEq, hfill, hlimit, hlowest,
    finite_le_finite, signed_false, signed_false, Int.ofNat_le, Binary64.finite.injEq, hmax,
    and_iff_right rfl]
  omega

/-- Callers wait for a bucket that fills at the limit itself, in some row of reservations, if and
only if the limit is from the lowest rate on and low enough for a full bucket to lose a token. -/
theorem delays_and_fillsAt_iff : ¬ l.NeverDelays action ∧ l.FillsAt action (l.limitFor action) ↔
    lowestRate ≤ l.limitFor action ∧ l.limitFor action < undiminished := by
  rw [neverDelays_iff, not_not]
  constructor
  · rintro ⟨⟨hpos, hsmall⟩, hfills⟩
    have hfinite := isFinite_of_lt hpos hsmall
    exact ⟨(fillsAt_limitFor_iff hfinite hpos).mp hfills, hsmall⟩
  · rintro ⟨hlow, hsmall⟩
    have hpos : 0 < l.limitFor action := pos_of_le lowestRate_pos hlow
    have hfinite := isFinite_of_lt hpos hsmall
    exact ⟨⟨hpos, hsmall⟩, (fillsAt_limitFor_iff hfinite hpos).mpr hlow⟩

end Limiter

end Settle
