import Settle.Proofs.Retrier.Pace
import Settle.Proofs.Schedule

/-! # Runs follow their schedule

Where calls take no time, the delays are all that passes, so the schedule of a policy tells when
each call is made. The first call that the schedule puts at the end of the budget or past it is
made at the end, and is the last one. -/

namespace Settle.Retrier

variable {σ α : Type} {r : Retrier σ} {script : Nat → Reply (Except Setback α)} {start : Nanos}
  {n last count : Nat} {w : World σ} {run : Run σ α}

/-! ## The pace of a schedule -/

theorem pace_eq_waited (hnow : ∀ n, (script n).took = 0) (hn : n < Nat.pow 2 32) :
    r.pace script start n = start + r.policy.waited n := by
  induction n with
  | zero => rw [pace, Policy.waited_zero, Nat.add_zero]
  | succ n ih =>
      rw [pace, ih (Nat.lt_of_succ_lt hn), hnow, Policy.waited_succ hn, Nat.add_zero,
        Nat.add_assoc]

/-- A run whose calls take no time, while its budget ends in time and is used up by the first
`last` delays of its schedule. -/
structure Scheduled (r : Retrier σ) (script : Nat → Reply (Except Setback α)) (start : Nanos)
    (last : Nat) : Prop where
  unhindered : r.Unhindered script
  instant : ∀ n, (script n).took = 0
  held : ((start + r.policy.budget : Nanos) : Instant) ≤ Instant.latest
  usedUp : r.policy.UsedUpAt last
  counted : last + 1 < Nat.pow 2 32

namespace Scheduled

variable (h : r.Scheduled script start last)

include h

theorem pace_eq (hn : n ≤ last) : r.pace script start n = start + r.policy.waited n :=
  pace_eq_waited h.instant (Nat.lt_of_le_of_lt hn (Nat.lt_of_succ_lt h.counted))

theorem goesOn (hn : n < last) (ha : AsksAgain script n) : r.GoesOn script start n := by
  refine ⟨ha, ?_⟩
  rw [h.pace_eq (Nat.le_of_lt hn), h.instant, spentAt_of_held h.held, Nat.add_zero]
  exact Nat.add_lt_add_left (h.usedUp.waited_lt hn) start

theorem not_goesOn : ¬ r.GoesOn script start last := by
  rintro ⟨-, hin⟩
  rw [h.pace_eq (Nat.le_refl last), h.instant, spentAt_of_held h.held, Nat.add_zero] at hin
  exact Nat.not_lt.mpr h.usedUp.1 (Nat.lt_of_add_lt_add_left hin)

theorem lastCallAt_of_asks (ha : ∀ n < last, AsksAgain script n) :
    r.LastCallAt script start last :=
  ⟨fun n hn => h.goesOn hn (ha n hn), h.not_goesOn⟩

theorem lastCallAt_of_ok {v : α} (hn : n ≤ last) (ha : ∀ i < n, AsksAgain script i)
    (hok : (script n).answer = .ok v) : r.LastCallAt script start n := by
  refine ⟨fun i hi => h.goesOn (Nat.lt_of_lt_of_le hi hn) (ha i hi), ?_⟩
  rintro ⟨⟨cause, hasks⟩, -⟩
  rw [hok] at hasks
  cases hasks

/-- Calls are made when the schedule says, but none later than the end of the budget. -/
theorem callTimes_eq (hend : r.EndsAt script start 0 n run) (hn : n ≤ last) :
    run.trace.callTimes r.stage = (List.range (n + 1)).map fun i =>
      start + min (r.policy.waited i) r.policy.budget := by
  rw [hend.callTimes, Nat.sub_zero, ← List.range_eq_range']
  refine List.map_congr_left fun i hi => ?_
  have hi : i ≤ last := Nat.le_trans (Nat.le_of_lt_succ (List.mem_range.mp hi)) hn
  rw [h.pace_eq hi, spentAt_of_held h.held, Nat.add_min_add_left]

/-- Delays are those of the schedule, cut where they would leave the budget. -/
theorem retries_eq (hend : r.EndsAt script start 0 last run) :
    run.trace.retries = (List.range last).map fun i =>
      (i + 1, min (r.policy.delay (i + 1)) (r.policy.budget - r.policy.waited i)) := by
  rw [hend.retries, Nat.sub_zero, ← List.range_eq_range']
  refine List.map_congr_left fun i hi => ?_
  rw [h.pace_eq (Nat.le_of_lt (List.mem_range.mp hi)), h.instant, spentAt_of_held h.held,
    Nat.add_zero (start + _), Nat.add_sub_add_left]

theorem retry_eq_row (hn : n < last) (hwithin : r.policy.waited (n + 1) ≤ r.policy.budget) :
    (n + 1, min (r.policy.delay (n + 1)) (r.policy.budget - r.policy.waited n)) =
      ((r.policy.row n).retry, (r.policy.row n).delay) := by
  have hcounted : n + 1 < Nat.pow 2 32 := Nat.lt_of_le_of_lt hn (Nat.lt_of_succ_lt h.counted)
  rw [Policy.waited_succ hcounted] at hwithin
  rw [Nat.min_eq_left (Nat.le_sub_of_add_le' hwithin), Policy.row_retry, Policy.row_delay]

variable (hcount : count < Nat.pow 2 32) (hlast : last ≤ count)

include hcount hlast

/-- Where a cumulative wait meets the budget, the retries are the rows within it. -/
theorem retries_of_met (hend : r.EndsAt script start 0 last run)
    (hpos : ∀ d ∈ r.policy.schedule count, 0 < d)
    (hmet : ∃ n ≤ count, r.policy.waited n = r.policy.budget) :
    run.trace.retries =
      ((r.policy.rows count).filter (·.within)).map fun row => (row.retry, row.delay) := by
  have heq := h.usedUp.waited_eq hcount hmet
  have hwithin := Policy.within_iff_of_met hcount hlast hpos heq
  rw [h.retries_eq hend, Policy.filter_within hcount hlast hwithin, List.map_map]
  refine List.map_congr_left fun i hi => ?_
  have hi := List.mem_range.mp hi
  exact h.retry_eq_row hi ((hwithin i (Nat.lt_of_lt_of_le hi hlast)).mpr hi)

/-- Where none does, one more retry follows: its row is the first one past the budget, and its
delay is cut to end with the budget. -/
theorem retries_of_passed (hend : r.EndsAt script start 0 last run)
    (hpassed : ∀ n ≤ count, r.policy.waited n ≠ r.policy.budget) :
    ∃ past delay, (r.policy.rows count).find? (!·.within) = some past ∧
      delay < past.delay ∧ past.total - past.delay + delay = r.policy.budget ∧
      run.trace.retries = ((r.policy.rows count).filter (·.within)).map
        (fun row => (row.retry, row.delay)) ++ [(past.retry, delay)] := by
  have hused := h.usedUp.1
  cases last with
  | zero =>
      have hzero : r.policy.waited 0 = 0 := Policy.waited_zero _
      have hbudget : r.policy.budget ≤ r.policy.waited 0 := hused
      refine absurd ?_ (hpassed 0 (Nat.zero_le count))
      rw [hzero] at hbudget ⊢
      exact (Nat.le_zero.mp hbudget).symm
  | succ k =>
      have hk : k < count := hlast
      have hlt : r.policy.waited k < r.policy.budget := h.usedUp.waited_lt (Nat.lt_succ_self k)
      have hpast : r.policy.budget < r.policy.waited (k + 1) :=
        Nat.lt_of_le_of_ne hused (hpassed (k + 1) hlast).symm
      have hsucc : r.policy.waited (k + 1) = r.policy.waited k + r.policy.delay (k + 1) :=
        Policy.waited_succ (Nat.lt_of_le_of_lt hlast hcount)
      have hwithin := h.usedUp.within_iff_of_passed hcount hpast
      refine ⟨r.policy.row k, r.policy.budget - r.policy.waited k,
        Policy.find_past hcount hk hwithin, ?_, ?_, ?_⟩
      · rw [Policy.row_delay]
        lia
      · rw [Policy.row_total, Policy.row_delay]
        lia
      · have hcut : min (r.policy.delay (k + 1)) (r.policy.budget - r.policy.waited k) =
            r.policy.budget - r.policy.waited k := Nat.min_eq_right (by lia)
        rw [h.retries_eq hend, Policy.filter_within hcount (Nat.le_of_lt hk) hwithin,
          List.map_map, List.range_succ, List.map_append, List.map_singleton, hcut,
          Policy.row_retry]
        refine congrArg (· ++ _) (List.map_congr_left fun i hi => ?_)
        have hi := List.mem_range.mp hi
        exact h.retry_eq_row (Nat.lt_succ_of_lt hi)
          ((hwithin i (Nat.lt_trans hi hk)).mpr hi)

end Scheduled

/-! ## The whole run -/

/-- How a run from `w` follows the schedule of its policy, whose first `last` delays use up the
budget. Rows and cumulative waits are those of a schedule of any length that lists these delays;
the wait before the first retry, which is zero, counts as one. -/
structure FollowsSchedule (r : Retrier σ) (script : Nat → Reply (Except Setback α)) (w : World σ)
    (last : Nat) : Prop where
  exhausted : (∀ n ≤ last, AsksAgain script n) → ∃ run cause, r.run script w = some run ∧
    (script last).answer = .error (.retryable cause) ∧
    run.result = .error ⟨.timedOut cause, last + 1, r.policy.budget⟩ ∧
    run.trace.calls r.stage = last + 1 ∧
    run.trace.callTimes r.stage = (List.range (last + 1)).map fun n =>
      w.clock.now + min (r.policy.waited n) r.policy.budget
  succeeded : ∀ n v, (∀ i < n, AsksAgain script i) → (script n).answer = .ok v →
    ∃ run, r.run script w = some run ∧ (run.result = .ok v ↔ n ≤ last)
  met : ∀ run count, r.run script w = some run → (∀ n ≤ last, AsksAgain script n) →
    last ≤ count → count < Nat.pow 2 32 → (∀ d ∈ r.policy.schedule count, 0 < d) →
    (∃ n ≤ count, r.policy.waited n = r.policy.budget) →
    run.trace.retries =
      ((r.policy.rows count).filter (·.within)).map fun row => (row.retry, row.delay)
  passed : ∀ run count, r.run script w = some run → (∀ n ≤ last, AsksAgain script n) →
    last ≤ count → count < Nat.pow 2 32 →
    (∀ n ≤ count, r.policy.waited n ≠ r.policy.budget) →
    ∃ past delay, (r.policy.rows count).find? (!·.within) = some past ∧
      delay < past.delay ∧ past.total - past.delay + delay = r.policy.budget ∧
      run.trace.retries = ((r.policy.rows count).filter (·.within)).map
        (fun row => (row.retry, row.delay)) ++ [(past.retry, delay)]

section run

variable (h : r.Scheduled script w.clock.now last) (hw : w.clock.Unsignalled)

include h hw

theorem Scheduled.run_endsAt (hn : n ≤ last) (hlast : r.LastCallAt script w.clock.now n) :
    ∃ run, r.run script w = some run ∧ r.EndsAt script w.clock.now 0 n run :=
  Retrier.run_endsAt h.unhindered hw (holdsEnd_of_held h.held)
    (Nat.lt_of_le_of_lt hn (Nat.lt_sub_of_add_lt h.counted)) hlast

theorem Scheduled.endsAt_of_run (hrun : r.run script w = some run)
    (ha : ∀ n ≤ last, AsksAgain script n) : r.EndsAt script w.clock.now 0 last run := by
  obtain ⟨ended, hended, hend⟩ := h.run_endsAt hw (Nat.le_refl last)
    (h.lastCallAt_of_asks fun n hn => ha n (Nat.le_of_lt hn))
  rw [hrun] at hended
  exact Option.some.inj hended ▸ hend

end run

/-- A schedule tells what a run does whose calls take no time: when each call is made, where the
run gives up, which success it lives to see, and which retries it makes. -/
theorem run_schedule (h : r.Scheduled script w.clock.now last) (hw : w.clock.Unsignalled) :
    FollowsSchedule r script w last := by
  refine
    { exhausted := ?_
      succeeded := ?_
      met := fun run count hrun ha hlast hcount hpos hmet =>
        h.retries_of_met hcount hlast (h.endsAt_of_run hw hrun ha) hpos hmet
      passed := fun run count hrun ha hlast hcount hpassed =>
        h.retries_of_passed hcount hlast (h.endsAt_of_run hw hrun ha) hpassed }
  · intro ha
    obtain ⟨run, hrun, hend⟩ := h.run_endsAt hw (Nat.le_refl last)
      (h.lastCallAt_of_asks fun n hn => ha n (Nat.le_of_lt hn))
    obtain ⟨cause, hcause⟩ := ha last (Nat.le_refl last)
    have hnow : run.world.clock.now = w.clock.now + r.policy.budget := by
      rw [hend.now_eq, h.pace_eq (Nat.le_refl last), h.instant, spentAt_of_held h.held,
        Nat.add_min_add_left, Nat.min_eq_right h.usedUp.1, Nat.add_zero]
    refine ⟨run, cause, hrun, hcause, ?_, hend.calls_eq, h.callTimes_eq hend (Nat.le_refl last)⟩
    rw [hend.result, hnow, Nat.add_sub_cancel_left, resultAt, hcause]
    rfl
  · intro n v ha hok
    rcases Nat.lt_or_ge last n with hlt | hle
    · obtain ⟨run, hrun, hend⟩ := h.run_endsAt hw (Nat.le_refl last)
        (h.lastCallAt_of_asks fun i hi => ha i (Nat.lt_trans hi hlt))
      obtain ⟨cause, hcause⟩ := ha last hlt
      refine ⟨run, hrun, fun hv => ?_, fun hle => absurd hle (Nat.not_le.mpr hlt)⟩
      rw [hend.result, resultAt, hcause] at hv
      cases hv
    · obtain ⟨run, hrun, hend⟩ := h.run_endsAt hw hle (h.lastCallAt_of_ok hle ha hok)
      refine ⟨run, hrun, fun _ => hle, fun _ => ?_⟩
      rw [hend.result, resultAt, hok]
      rfl

/-- Half a minute for delays that double from one second up to eight. -/
def halfMinute : Retrier Unit := .ungated ⟨.seconds 30, .seconds 1, .seconds 8, 2, false⟩ none

theorem run_schedule_halfMinute :
    halfMinute.Scheduled (neverReady (α := Unit) 0) 0 6 ∧
      Clock.Unsignalled {} ∧
      (∃ run cause, halfMinute.run (neverReady (α := Unit) 0) ⟨{}, ()⟩ = some run ∧
        run.result = .error ⟨.timedOut cause, 7, .seconds 30⟩) ∧
      FollowsSchedule halfMinute (neverReady (α := Unit) 0) ⟨{}, ()⟩ 6 := by
  have hused : halfMinute.policy.UsedUpAt 6 := by
    refine ⟨?_, fun n hn => Nat.le_of_not_lt fun hlt => ?_⟩
    · change halfMinute.policy.budget ≤ halfMinute.policy.waited 6
      decide +kernel
    · have hless : ∀ n < 6, ¬ halfMinute.policy.budget ≤ halfMinute.policy.waited n := by
        decide +kernel
      exact hless n hlt hn
  have h : halfMinute.Scheduled (neverReady (α := Unit) 0) 0 6 :=
    { unhindered := ⟨rfl, rfl, fun _ _ => rfl, fun _ => rfl⟩
      instant := fun _ => rfl
      held := by decide +kernel
      usedUp := hused
      counted := by decide +kernel }
  have hw : Clock.Unsignalled {} := ⟨rfl, rfl⟩
  have hfollows := run_schedule (w := ⟨{}, ()⟩) h hw
  obtain ⟨run, cause, hrun, -, hresult, -⟩ := hfollows.exhausted fun _ _ => ⟨_, rfl⟩
  exact ⟨h, hw, ⟨run, cause, hrun, hresult⟩, hfollows⟩

end Settle.Retrier
