import Settle.Proofs.Policy.Delay
import Settle.Proofs.Retrier.Calls

/-! # Delays between attempts

Jitter keeps half of a nominal delay and draws a share of the other half. Whatever is drawn, the
delay lies between that half and the whole, so the sum that gives it can be held. A run waits for
the delay that its policy decides on, cut where the budget ends. -/

namespace Settle

/-! ## Jitter -/

namespace Policy

variable {p : Policy} {draw : Binary64} {delay elapsed : Nanos} {attempt : Nat}

/-- What a drawn share of a spread comes to. A share that is no time takes all of it. -/
def drawnShare (draw : Binary64) (spread : Nanos) : Nanos :=
  match Nanos.ofSeconds? (draw * spread.toSeconds) with
  | some extra => min extra spread
  | none => spread

theorem drawnShare_le (draw : Binary64) (spread : Nanos) : drawnShare draw spread ≤ spread := by
  unfold drawnShare
  split
  · exact Nat.min_le_right _ _
  · exact Nat.le_refl _

theorem jittered_eq (draw : Binary64) (delay : Nanos) :
    jittered draw delay = delay / 2 + drawnShare draw (delay - delay / 2) := by
  by_cases hspread : delay - delay / 2 = 0
  · -- Nothing is left to draw from a delay of no length.
    have hshare := drawnShare_le draw (delay - delay / 2)
    rw [jittered, if_pos hspread]
    lia
  · rw [jittered, if_neg hspread, drawnShare]
    cases Nanos.ofSeconds? (draw * (delay - delay / 2).toSeconds) with
    | none => rfl
    | some extra => rfl

theorem half_le_jittered (draw : Binary64) (delay : Nanos) : delay / 2 ≤ jittered draw delay := by
  rw [jittered_eq]
  exact Nat.le_add_right _ _

theorem jittered_le (draw : Binary64) (delay : Nanos) : jittered draw delay ≤ delay := by
  have hshare := drawnShare_le draw (delay - delay / 2)
  rw [jittered_eq]
  lia

theorem jittered_zero (h : delay ≤ Nanos.longest) : jittered 0 delay = delay / 2 := by
  have hhalf : delay - delay / 2 ≤ (Nanos.longest + 1) / 2 := by
    generalize Nanos.longest = most at h
    lia
  have hspread : delay - delay / 2 ≤ Nanos.seconds Nanos.lastRead := Nat.le_trans hhalf (by decide)
  obtain ⟨-, hu, hseconds⟩ := Nanos.toSeconds_of_le hspread
  have hread : Nanos.ofSeconds? 0 = some 0 := Nanos.ofSeconds?_ofNat (by decide)
  have hshare : drawnShare 0 (delay - delay / 2) = 0 := by
    rw [drawnShare, hseconds, Binary64.zero_mul_finite, hread]
    exact Nat.zero_min _
  rw [jittered_eq, hshare, Nat.add_zero]

/-- The delay with jitter, unless its halves add up to more than the longest time. -/
def jittered? (draw : Binary64) (delay : Nanos) : Option Nanos :=
  if delay - delay / 2 = 0 then some delay
  else (delay / 2).plus? (drawnShare draw (delay - delay / 2))

theorem jittered?_of_le (h : delay ≤ Nanos.longest) :
    jittered? draw delay = some (jittered draw delay) := by
  have hsum := jittered_le draw delay
  unfold jittered?
  split
  · next hspread => rw [jittered, if_pos hspread]
  · rw [jittered_eq] at hsum ⊢
    exact Nanos.plus?_of_le (Nat.le_trans hsum h)

/-! ## Decisions -/

/-- The decision of a policy, if every sum of times on the way to it can be held. -/
def next? (p : Policy) (draw : Binary64) (attempt : Nat) (elapsed : Nanos) : Option Decision :=
  if p.budget ≤ elapsed then some .giveUp
  else if p.jitter then (jittered? draw (p.delay attempt)).map .retryAfter
  else some (.retryAfter (p.delay attempt))

/-- A delay between half of the nominal one and all of it, which is the nominal one where there is
no jitter. -/
structure Allows (p : Policy) (attempt : Nat) (delay : Nanos) : Prop where
  half_le : p.delay attempt / 2 ≤ delay
  le_delay : delay ≤ p.delay attempt
  unjittered : p.jitter = false → delay = p.delay attempt

/-- What a policy decides after a failed attempt, whatever is drawn. The last field tells that half
of a delay is all that is waited if nothing is drawn. -/
structure DecisionSpec (p : Policy) (draw : Binary64) (attempt : Nat) (elapsed : Nanos) : Prop where
  giveUp_iff : p.next draw attempt elapsed = .giveUp ↔ p.budget ≤ elapsed
  retries : elapsed < p.budget →
    ∃ delay, p.next draw attempt elapsed = .retryAfter delay ∧ p.Allows attempt delay
  held : p.ceiling ≤ Nanos.longest → p.delay attempt ≤ Nanos.longest ∧
    p.next? draw attempt elapsed = some (p.next draw attempt elapsed)
  least : p.ceiling ≤ Nanos.longest → elapsed < p.budget → p.jitter = true →
    p.next 0 attempt elapsed = .retryAfter (p.delay attempt / 2)

/-- A delay was read from seconds, or it is the ceiling. -/
theorem delay_le_longest (h : p.ceiling ≤ Nanos.longest) (retry : Nat) :
    p.delay retry ≤ Nanos.longest := by
  rw [delay_eq]
  cases hread : Nanos.ofSeconds? (p.capped retry) with
  | none => exact h
  | some d => exact Nat.le_trans (Nanos.ofSeconds?_le hread) Nanos.seconds_lastRead_le_longest

theorem allows_of_next (h : p.next draw attempt elapsed = .retryAfter delay) :
    p.Allows attempt delay := by
  unfold next at h
  split at h
  · cases h
  · cases hj : p.jitter with
    | false =>
        simp only [hj, Bool.false_eq_true, if_false, Decision.retryAfter.injEq] at h
        subst h
        exact ⟨Nat.div_le_self _ _, Nat.le_refl _, fun _ => rfl⟩
    | true =>
        simp only [hj, if_true, Decision.retryAfter.injEq] at h
        subst h
        exact ⟨half_le_jittered _ _, jittered_le _ _, fun hnone => by simp [hj] at hnone⟩

theorem next?_eq (h : p.delay attempt ≤ Nanos.longest) :
    p.next? draw attempt elapsed = some (p.next draw attempt elapsed) := by
  unfold next? next
  by_cases hspent : p.budget ≤ elapsed
  · rw [if_pos hspent, if_pos hspent]
  · rw [if_neg hspent, if_neg hspent, jittered?_of_le h, Option.map_some]
    cases p.jitter with
    | false => simp only [Bool.false_eq_true, if_false]
    | true => simp only [if_true]

theorem decisionSpec (p : Policy) (draw : Binary64) (attempt : Nat) (elapsed : Nanos) :
    p.DecisionSpec draw attempt elapsed := by
  have hgive := p.next_eq_giveUp_iff draw attempt elapsed
  refine
    { giveUp_iff := hgive
      retries := fun hleft => ?_
      held := fun hceiling => ?_
      least := fun hceiling hleft hjitter => ?_ }
  · cases hnext : p.next draw attempt elapsed with
    | giveUp => exact (Nat.not_le.mpr hleft (hgive.mp hnext)).elim
    | retryAfter delay => exact ⟨delay, rfl, allows_of_next hnext⟩
  · have hdelay := delay_le_longest hceiling attempt
    exact ⟨hdelay, next?_eq hdelay⟩
  · have hhalf := jittered_zero (delay_le_longest hceiling attempt)
    simp only [next, if_neg (Nat.not_le.mpr hleft), if_pos hjitter, hhalf]

end Policy

/-! ## Waits -/

namespace Retrier

variable {σ α : Type} {r : Retrier σ} {script : Nat → Reply (Except Setback α)} {start : Nanos}
  {made fuel : Nat} {w : World σ} {before after : Trace} {action : String} {attempt : Nat}
  {now delay : Nanos} {cause : Cause}

/-- A delay that stands between these events of a run: it is the one after the last call, as the
policy decides at the end of that call, cut at the end of the budget. It is over before the next
turn is booked, unless the run is withdrawn. -/
structure Backoff (r : Retrier σ) (script : Nat → Reply (Except Setback α)) (start : Nanos)
    (made : Nat) (before : Trace) (attempt : Nat) (now delay : Nanos) (after : Trace) : Prop where
  number : attempt = made + before.calls r.stage
  called : ∃ earlier t, before = earlier ++ [.called r.stage t] ∧
    now = t + (script (made + Trace.calls earlier r.stage)).took
  decided : ∃ nominal, r.policy.next (r.draw attempt) attempt (now - start) = .retryAfter nominal ∧
    r.policy.Allows attempt nominal ∧ delay = min nominal (r.remaining start now)
  waited : ∀ e ∈ after.head?, e = .cancelled r.action attempt ∨ e.booked? = some (now + delay)

theorem split_retrying {x : Event} {mid : Trace}
    (h : r.opening w ++ [x] = before ++ .retrying action attempt now delay cause :: mid) :
    before = r.opening w ∧ x = .retrying action attempt now delay cause ∧ mid = [] := by
  rcases Trace.split_append h with ⟨rest, hopening, -⟩ | ⟨front, rfl, hlast⟩
  · have hmem : Event.retrying action attempt now delay cause ∈ r.opening w := by simp [hopening]
    simp [opening, booking] at hmem
  · obtain ⟨rfl, hx, rfl⟩ :
        front = [] ∧ .retrying action attempt now delay cause = x ∧ mid = [] := by
      simpa [List.singleton_eq_append_iff] using hlast
    exact ⟨List.append_nil _, hx.symm, rfl⟩

theorem backoff_attempt
    (hn : r.next start (made + 1) (r.afterCall script made w).clock.now = .retryAfter delay)
    (hnext : ∀ e ∈ after.head?, e = .cancelled r.action (made + 1) ∨
      (r.afterBackoff script made delay w).clock.raised = false ∧
        e = r.booking (r.afterBackoff script made delay w)) :
    r.Backoff script start made (r.opening w) (made + 1) (r.afterCall script made w).clock.now
      delay after := by
  obtain ⟨nominal, hnominal, hcut, -⟩ := exists_of_next_eq_retryAfter hn
  refine
    { number := by rw [calls_opening]
      called := ⟨[r.booking w], _, rfl, afterCall_now⟩
      decided := ⟨nominal, hnominal, Policy.allows_of_next hnominal, hcut⟩
      waited := fun e he => (hnext e he).imp_right ?_ }
  rintro ⟨hraised, rfl⟩
  have hnow : (r.afterBackoff script made delay w).clock.now =
      (r.afterCall script made w).clock.now + delay := (Clock.wait_unraised hraised).2.1
  rw [booked?_booking, hnow]

theorem Backoff.later {x : Event}
    (h : r.Backoff script start (made + 1) before attempt now delay after) (hx : x.start? = none) :
    r.Backoff script start made (r.opening w ++ [x] ++ before) attempt now delay after := by
  have hcalls (t : Trace) :
      Trace.calls (r.opening w ++ [x] ++ t) r.stage = 1 + t.calls r.stage := by
    rw [List.append_assoc, List.singleton_append, calls_attempt hx]
  obtain ⟨earlier, t, rfl, hnow⟩ := h.called
  refine
    { number := by rw [hcalls, h.number, Nat.add_assoc]
      called := ⟨r.opening w ++ [x] ++ earlier, t, by simp, ?_⟩
      decided := h.decided
      waited := h.waited }
  rw [hcalls, hnow, Nat.add_assoc]

/-- A delay that stands in the events of an attempt and those after it is that of this attempt, or
one of the rest. -/
theorem backoff_split {last : Nanos} {cause' : Cause} {rest : Trace}
    (hn : r.next start (made + 1) (r.afterCall script made w).clock.now = .retryAfter last)
    (hnext : ∀ e ∈ rest.head?, e = .cancelled r.action (made + 1) ∨
      (r.afterBackoff script made last w).clock.raised = false ∧
        e = r.booking (r.afterBackoff script made last w))
    (hrest : ∀ {before}, rest = before ++ .retrying action attempt now delay cause :: after →
      r.Backoff script start (made + 1) before attempt now delay after)
    (h : r.opening w ++ [.retrying r.action (made + 1) (r.afterCall script made w).clock.now last
        cause'] ++ rest = before ++ .retrying action attempt now delay cause :: after) :
    r.Backoff script start made before attempt now delay after := by
  rcases Trace.split_append h with ⟨mid, hfirst, rfl⟩ | ⟨mid, rfl, hlater⟩
  · obtain ⟨rfl, hx, rfl⟩ := split_retrying hfirst
    obtain ⟨-, rfl, rfl, rfl, -⟩ := Event.retrying.inj hx
    exact backoff_attempt hn hnext
  · exact (hrest hlater).later rfl

theorem Course.backoff {run : Run σ α} (h : Course r script start made w run)
    (htrace : run.trace = before ++ .retrying action attempt now delay cause :: after) :
    r.Backoff script start made before attempt now delay after := by
  induction h generalizing before with
  | withdrawn | interrupted | succeeded | refused | exhausted =>
      have hmem : Event.retrying action attempt now delay cause ∈
          before ++ .retrying action attempt now delay cause :: after := by simp
      rw [← htrace] at hmem
      simp [opening, booking] at hmem
  | retried _ _ _ hn rest ih => exact backoff_split hn (fun e he => rest.head he) ih htrace

theorem Endless.backoff {t : Trace} (h : Endless r script start fuel made w t)
    (htrace : t = before ++ .retrying action attempt now delay cause :: after) :
    r.Backoff script start made before attempt now delay after := by
  induction h generalizing before with
  | counted => simp at htrace
  | again _ _ _ hn rest ih =>
      rw [List.append_cons] at htrace
      exact backoff_split hn (fun e he => .inr ⟨rest.unraised, rest.head he⟩) ih htrace

/-- How a run waits between its attempts: its policy decides within these bounds, and every delay
of the run is one that it decides on, cut at the end of the budget. -/
structure BackoffSpec (r : Retrier σ) (script : Nat → Reply (Except Setback α)) (w : World σ) :
    Prop where
  decides : ∀ draw attempt elapsed, r.policy.DecisionSpec draw attempt elapsed
  waits : ∀ {before after : Trace} {action attempt now delay cause},
    r.events script w = before ++ .retrying action attempt now delay cause :: after →
      r.Backoff script w.clock.now 0 before attempt now delay after

/-- Jitter leaves every delay between half of its nominal length and all of it. -/
theorem run_backoffs (r : Retrier σ) (script : Nat → Reply (Except Setback α)) (w : World σ) :
    r.BackoffSpec script w := by
  refine ⟨r.policy.decisionSpec, fun {before after action attempt now delay cause} h => ?_⟩
  rcases events_cases r script w with ⟨run, -, hc, hevents⟩ | ⟨-, hendless | hevents⟩
  · exact hc.backoff (hevents.symm.trans h)
  · exact hendless.backoff h
  · rw [hevents] at h
    simp at h

end Retrier

end Settle
