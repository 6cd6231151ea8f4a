import Mathlib.Data.List.Induction
import Settle.Proofs.Limiter.Isolation
import Settle.Proofs.Time

/-! # Actions that have been idle

A full bucket holds as many tokens as it gains in a second. So at one call a second and more an idle
action has its turn at once. At a lower rate its bucket is full with less than a token in it, and
the action waits until the rest of the token has come. -/

namespace Settle

namespace Bucket

variable {κ : Type} [Add κ] [Sub κ] [Mul κ] [Min κ] [OfNat κ 1]

/-- The balance that a take finds. -/
def refilled (seconds : Nanos → κ) (b : Bucket κ) (now : Nanos) : κ :=
  min (b.tokens + seconds (now - b.updated) * b.rate) b.rate

theorem take_tokens (seconds : Nanos → κ) (b : Bucket κ) (now : Nanos) :
    (b.take seconds now).tokens = b.refilled seconds now - 1 := rfl

end Bucket

namespace Limiter

open Binary64

variable {l : Limiter} {action : String} {now : Nanos} {history : List (String × Nanos)}
  {b : Bucket Binary64} {u : Nat} {hu : Representable u}

/-! ## Buckets after a row of reservations -/

/-- The buckets after a row of reservations. -/
def served (l : Limiter) (history : List (String × Nanos)) : Buckets :=
  history.foldl (fun buckets (action, now) => (l.reserve action now buckets).2) []

theorem served_append_singleton (l : Limiter) (history : List (String × Nanos))
    (entry : String × Nanos) : l.served (history ++ [entry]) =
      (l.reserve entry.1 entry.2 (l.served history)).2 := by
  rw [served, List.foldl_append]
  rfl

theorem lookup_served_eq_none (h : action ∉ history.map Prod.fst) :
    (l.served history).lookup action = none := by
  induction history using List.reverseRecOn with
  | nil => rfl
  | append_singleton history entry ih =>
      rw [List.map_append, List.mem_append, not_or] at h
      rw [served_append_singleton, lookup_reserve_of_ne (by simpa using h.2)]
      exact ih h.1

theorem rate_of_lookup_served (hb : (l.served history).lookup action = some b) :
    l.rate? action = some b.rate := by
  induction history using List.reverseRecOn generalizing b with
  | nil => cases hb
  | append_singleton history entry ih =>
      rw [served_append_singleton] at hb
      by_cases h : action = entry.1
      · subst h
        cases hrate : l.rate? entry.1 with
        | none =>
            rw [reserve_of_unlimited hrate] at hb
            rw [← hrate, ih hb]
        | some rate =>
            simp only [reserve, hrate, List.lookup_cons_self, Option.some.injEq] at hb
            subst hb
            cases hold : (l.served history).lookup entry.1 with
            | none => rfl
            | some old => rw [← hrate, ih hold]; rfl
      · rw [lookup_reserve_of_ne h] at hb
        exact ih hb

/-! ## Idle actions -/

/-- Why an action's bucket is full at `now`, after a row of reservations: it has not been reserved
yet, or its bucket has filled again. It has if nobody waits for a turn and the action has rested
for a second. -/
inductive Idle (l : Limiter) (history : List (String × Nanos)) (action : String) (now : Nanos) :
    Prop where
  | fresh (h : action ∉ history.map Prod.fst)
  | full {b : Bucket Binary64} (hb : (l.served history).lookup action = some b)
      (hfull : b.refilled Nanos.toSeconds now = b.rate)
  | rested {b : Bucket Binary64} (hb : (l.served history).lookup action = some b)
      (htokens : 0 ≤ b.tokens) (hrest : b.updated + .seconds 1 ≤ now)

theorem refilled_eq (b : Bucket Binary64) (now : Nanos) : b.refilled Nanos.toSeconds now =
    (b.tokens + (now - b.updated).toSeconds * b.rate).lesser b.rate := rfl

theorem refilled_full (h0 : 0 < u) :
    (Bucket.full (finite false u hu) now).refilled Nanos.toSeconds now = finite false u hu := by
  have hsame {b : Bucket Binary64} (htokens : b.tokens = finite false u hu)
      (hrate : b.rate = finite false u hu) (hupdated : b.updated = now) :
      b.refilled Nanos.toSeconds now = finite false u hu := by
    rw [refilled_eq, htokens, hrate, hupdated, Nat.sub_self, Nanos.toSeconds_zero]
    refine lesser_eq h0 (le_add_of_nonneg h0 ?_ zero_mul_nonneg)
    exact finite_le_finite.mpr (Int.le_refl _)
  exact hsame rfl rfl rfl

theorem refilled_rested (h0 : 0 < u) (hrate : b.rate = finite false u hu) (htokens : 0 ≤ b.tokens)
    (hrest : b.updated + .seconds 1 ≤ now) :
    b.refilled Nanos.toSeconds now = finite false u hu := by
  have hsecond : 1 ≤ (now - b.updated).toSeconds := Nanos.one_le_toSeconds (by lia)
  rw [refilled_eq, hrate, Binary64.add_comm]
  exact lesser_eq h0 (le_add_of_nonneg h0 (le_mul_of_one_le h0 hsecond) htokens)

/-- A reservation finds the bucket of an idle action full. -/
theorem reserve_of_idle (h0 : 0 < u) (hrate : l.rate? action = some (finite false u hu))
    (h : l.Idle history action now) :
    ∃ b : Bucket Binary64, b.rate = finite false u hu ∧ b.tokens = finite false u hu - 1 ∧
      (l.reserve action now (l.served history)).1 = turn b := by
  have hbucket (b : Bucket Binary64) (hb : (l.served history).lookup action = some b) :
      b.rate = finite false u hu ∧
        (l.reserve action now (l.served history)).1 = turn (b.take Nanos.toSeconds now) := by
    have heq := rate_of_lookup_served hb
    rw [hrate, Option.some.injEq] at heq
    refine ⟨heq.symm, ?_⟩
    simp only [reserve, hrate, hb, Option.getD_some]
  cases h with
  | fresh hfresh =>
      refine ⟨(Bucket.full (finite false u hu) now).take Nanos.toSeconds now, rfl, ?_, ?_⟩
      · rw [Bucket.take_tokens, refilled_full h0]
      · simp only [reserve, hrate, lookup_served_eq_none hfresh, Option.getD_none]
  | @full b hb hfull =>
      obtain ⟨heq, hturn⟩ := hbucket b hb
      refine ⟨b.take Nanos.toSeconds now, heq, ?_, hturn⟩
      rw [Bucket.take_tokens, hfull, heq]
  | @rested b hb htokens hrest =>
      obtain ⟨heq, hturn⟩ := hbucket b hb
      refine ⟨b.take Nanos.toSeconds now, heq, ?_, hturn⟩
      rw [Bucket.take_tokens, refilled_rested h0 heq htokens hrest]

/-! ## The turn of a full bucket -/

/-- The units of the lowest rate. -/
def lowestUnits : Nat := nearest (one * one) (1000 * one)

theorem lowestUnits_pos : 0 < lowestUnits := by decide +kernel

theorem lowestUnits_lt_one : lowestUnits < one := by decide +kernel

theorem representable_lowestUnits : Representable lowestUnits :=
  ⟨Nat.lt_trans lowestUnits_lt_one representable_one.inRange, aligned_nearest _ _⟩

theorem lowestRate_eq : ∃ hu, lowestRate = finite false lowestUnits hu :=
  ⟨representable_lowestUnits, by decide +kernel⟩

theorem lowestRate_pos : 0 < lowestRate := by
  obtain ⟨hu, heq⟩ := lowestRate_eq
  rw [heq]
  exact zero_lt_finite lowestUnits_pos

theorem turn_of_nonneg (h : 0 ≤ b.tokens) : turn b = 0 := by
  have hzero : Nanos.ofSeconds? 0 = some 0 := Nanos.ofSeconds?_ofNat (by decide)
  unfold turn
  rw [Bucket.debt, if_pos h, hzero]
  exact Nat.zero_min _

theorem turn_of_one_le (hrate : b.rate = finite false u hu) (htokens : b.tokens = b.rate - 1)
    (h : one ≤ u) : turn b = 0 := by
  refine turn_of_nonneg ?_
  rw [htokens, hrate, one_eq]
  exact Binary64.sub_nonneg hu representable_one h

/-- The units of the longest wait in seconds, for the lowest rate. -/
def longestMissing : Nat := nearest (nearest (one - lowestUnits) 1 * one) lowestUnits

theorem turn_of_lt_one (hrate : b.rate = finite false u hu) (htokens : b.tokens = b.rate - 1)
    (hlow : lowestUnits ≤ u) (h : u < one) :
    Nanos.ofSeconds? ((1 - b.rate) / b.rate) = some (turn b) ∧ turn b ≤ .seconds 999 := by
  obtain ⟨w, hw, hpos, hnearest, hmissing, hdebt⟩ := exists_sub hu representable_one h
  have hu0 : 0 < u := Nat.lt_of_lt_of_le lowestUnits_pos hlow
  have hmost : nearest (w * one) u ≤ longestMissing := by
    have hwle : w ≤ nearest (one - lowestUnits) 1 := by
      rw [hnearest]
      exact nearest_mono Nat.one_pos Nat.one_pos (by omega)
    refine nearest_mono hu0 lowestUnits_pos ?_
    exact Nat.mul_le_mul (Nat.mul_le_mul_right one hwle) hlow
  obtain ⟨wait, hwait, hle⟩ := Nanos.ofSeconds?_ofQuotient hmost (by decide +kernel)
  have hbound : wait ≤ .seconds 999 := Nat.le_trans hle (by decide +kernel)
  have hquotient : finite false w hw / finite false u hu = ofQuotient false (w * one) u :=
    finite_div_finite hu0
  have hnegative : ¬ 0 ≤ b.tokens := by
    rw [htokens, hrate, one_eq, hdebt, zero_eq, finite_le_finite]
    simp only [signed_false, signed_true]
    omega
  have hopposite : -finite true w hw = finite false w hw := rfl
  have howed : b.debt = ofQuotient false (w * one) u := by
    rw [Bucket.debt, if_neg hnegative, htokens, hrate, one_eq, hdebt, hopposite, hquotient]
  have hturn : turn b = wait := by
    unfold turn
    rw [howed, hwait]
    exact Nat.min_eq_left (Nat.le_trans hbound (by decide))
  rw [hturn, hrate, one_eq, hmissing, hquotient]
  exact ⟨hwait, hbound⟩

/-! ## Rates and waits -/

/-- The rate at which the bucket of an action with a limit fills. -/
def fillRate (l : Limiter) (action : String) : Binary64 :=
  (l.limitFor action).greater lowestRate

theorem rate?_eq_some (hfinite : (l.limitFor action).isFinite) (hpos : 0 < l.limitFor action) :
    l.rate? action = some (l.fillRate action) := if_pos ⟨hfinite, hpos⟩

theorem exists_fillRate_eq (hfinite : (l.limitFor action).isFinite)
    (hpos : 0 < l.limitFor action) :
    ∃ v hv u hu, l.limitFor action = finite false v hv ∧ l.fillRate action = finite false u hu ∧
      u = max v lowestUnits := by
  obtain ⟨v, hv, hlimit, -⟩ := exists_of_pos hfinite hpos
  obtain ⟨hlowest, heq⟩ := lowestRate_eq
  obtain ⟨u, hu, hfill, hmax⟩ := greater_eq hv hlowest
  refine ⟨v, hv, u, hu, hlimit, ?_, hmax⟩
  rw [fillRate, hlimit, heq, hfill]

theorem exists_fillRate (hfinite : (l.limitFor action).isFinite) (hpos : 0 < l.limitFor action) :
    ∃ u hu, l.fillRate action = finite false u hu ∧ lowestUnits ≤ u ∧
      (1 ≤ l.limitFor action → one ≤ u) ∧ (l.limitFor action < 1 → u < one) := by
  obtain ⟨v, hv, u, hu, hlimit, hfill, rfl⟩ := exists_fillRate_eq hfinite hpos
  refine ⟨max v lowestUnits, hu, hfill, Nat.le_max_right _ _, fun h => ?_, fun h => ?_⟩
  · rw [hlimit, one_eq, finite_le_finite] at h
    exact Nat.le_trans (Int.ofNat_le.mp h) (Nat.le_max_left _ _)
  · rw [hlimit, one_eq, finite_lt_finite] at h
    exact Nat.max_lt.mpr ⟨Int.ofNat_lt.mp h, lowestUnits_lt_one⟩

/-- The answer to an action whose bucket is full: no wait at a call a second and more, at a lower
rate the time that the rest of a token takes, and never more than 999 seconds. -/
structure IdleWait (l : Limiter) (action : String) (wait : Nanos) : Prop where
  atOnce : 1 ≤ l.limitFor action → wait = 0
  restOfToken : l.limitFor action < 1 →
    Nanos.ofSeconds? ((1 - l.fillRate action) / l.fillRate action) = some wait
  bounded : wait ≤ .seconds 999

/-- An idle action waits for what a full bucket lacks of one token. -/
theorem reserve_idleWait (hfinite : (l.limitFor action).isFinite) (hpos : 0 < l.limitFor action)
    (h : l.Idle history action now) :
    l.IdleWait action (l.reserve action now (l.served history)).1 := by
  obtain ⟨u, hu, hfill, hlow, hatLeast, hbelow⟩ := exists_fillRate hfinite hpos
  have hrate := rate?_eq_some hfinite hpos
  have h0 : 0 < u := Nat.lt_of_lt_of_le lowestUnits_pos hlow
  rw [hfill] at hrate
  obtain ⟨b, hb, htokens, hturn⟩ := reserve_of_idle h0 hrate h
  rw [← hb] at htokens
  rw [hturn]
  refine
    { atOnce := fun hone => turn_of_one_le hb htokens (hatLeast hone)
      restOfToken := fun hone => ?_
      bounded := ?_ }
  · rw [hfill, ← hb]
    exact (turn_of_lt_one hb htokens hlow (hbelow hone)).1
  · rcases Nat.lt_or_ge u one with hlt | hge
    · exact (turn_of_lt_one hb htokens hlow hlt).2
    · rw [turn_of_one_le hb htokens hge]
      exact Nat.zero_le _

/-- Two looks a second, and a change every two seconds. -/
def calmLimiter : Limiter := (Limiter.ofRate (1 / 2)).withLimit "GetDisk" 2

/-- More looks than a bucket holds, and a change among them. -/
def hastyHistory : List (String × Nanos) :=
  [("GetDisk", 0), ("GetDisk", 0), ("CreateDisk", 0), ("GetDisk", 0)]

theorem reserve_idleWait_calmLimiter :
    (calmLimiter.limitFor "GetDisk").isFinite ∧ 0 < calmLimiter.limitFor "GetDisk" ∧
      calmLimiter.Idle hastyHistory "GetDisk" (.seconds 2) ∧
      calmLimiter.IdleWait "GetDisk"
        (calmLimiter.reserve "GetDisk" (.seconds 2) (calmLimiter.served hastyHistory)).1 := by
  have hfinite : (calmLimiter.limitFor "GetDisk").isFinite := by decide +kernel
  have hpos : 0 < calmLimiter.limitFor "GetDisk" := by decide +kernel
  have hidle : calmLimiter.Idle hastyHistory "GetDisk" (.seconds 2) := by
    have hb : (calmLimiter.served hastyHistory).lookup "GetDisk" =
        some ⟨-1, 2, 0⟩ := by decide +kernel
    exact .full hb (by decide +kernel)
  exact ⟨hfinite, hpos, hidle, reserve_idleWait hfinite hpos hidle⟩

/-- At one call in two seconds the first caller waits for a second, and so does one who comes after
ten seconds in which nobody has called. -/
theorem halfRate_waits :
    ((Limiter.ofRate (1 / 2)).limitFor "GetDisk").isFinite ∧
      0 < (Limiter.ofRate (1 / 2)).limitFor "GetDisk" ∧
      (Limiter.ofRate (1 / 2)).Idle [] "GetDisk" 0 ∧
      (Limiter.ofRate (1 / 2)).Idle [("GetDisk", 0)] "GetDisk" (.seconds 10) ∧
      (Limiter.ofRate (1 / 2)).waits [("GetDisk", 0), ("GetDisk", .seconds 10)] [] =
        [("GetDisk", .seconds 1), ("GetDisk", .seconds 1)] ∧
      ((Limiter.ofRate (1 / 2)).reserve "GetDisk" 0 ((Limiter.ofRate (1 / 2)).served [])).1 ≠ 0 := by
  have hb : ((Limiter.ofRate (1 / 2)).served [("GetDisk", 0)]).lookup "GetDisk" =
      some ⟨-(1 / 2), 1 / 2, 0⟩ := by decide +kernel
  exact ⟨by decide +kernel, by decide +kernel, .fresh nofun, .full hb (by decide +kernel),
    by decide +kernel, by decide +kernel⟩

end Limiter

end Settle
