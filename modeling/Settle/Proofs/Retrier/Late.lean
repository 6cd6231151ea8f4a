import Settle.Proofs.Retrier.Calls

/-! # Turns booked late

A turn that is booked at the end of the budget or later is the last one, so a deadline leaves a run
at most one late call. That holds of runs that do not end as well: their events are those of all
attempts that are counted. -/

namespace Settle

namespace Event

/-- A turn of the stage is booked at `d` or later. -/
def bookedFrom (stage : Stage) (d : Instant) : Event → Bool
  | .reserved s _ time _ _ => decide (s = stage ∧ d ≤ time)
  | _ => false

variable {stage : Stage} {d : Instant} {e : Event}

theorem start?_of_bookedFrom (h : e.bookedFrom stage d = true) :
    ∃ time, e.booked? = some time ∧ e.start? = some time ∧ d ≤ (time : Instant) := by
  cases e with
  | reserved s action time wait announced => exact ⟨time, rfl, rfl, (of_decide_eq_true h).2⟩
  | _ => cases h

end Event

namespace Trace

/-- How many turns of the stage are booked at `d` or later. -/
def bookedFrom (t : Trace) (stage : Stage) (d : Instant) : Nat :=
  t.countP (Event.bookedFrom stage d)

variable {stage : Stage} {d : Instant}

@[simp] theorem bookedFrom_append (s t : Trace) :
    (s ++ t).bookedFrom stage d = s.bookedFrom stage d + t.bookedFrom stage d :=
  List.countP_append

theorem bookedFrom_cons (e : Event) (t : Trace) : bookedFrom (e :: t) stage d =
    t.bookedFrom stage d + if e.bookedFrom stage d then 1 else 0 := List.countP_cons

theorem bookedFrom_eq_zero {t : Trace} (h : ∀ e ∈ t, e.stage? ≠ some stage) :
    t.bookedFrom stage d = 0 := by
  refine List.countP_eq_zero.mpr fun e he => ?_
  cases e with
  | reserved s action time wait announced =>
      have hs : s ≠ stage := fun hs => h _ he (congrArg some hs)
      simp [Event.bookedFrom, hs]
  | _ => simp [Event.bookedFrom]

end Trace

namespace Retrier

variable {σ α : Type} {r : Retrier σ} {script : Nat → Reply (Except Setback α)} {start : Nanos}
  {made fuel : Nat} {w : World σ} {run : Run σ α} {stage : Stage} {d : Instant}

theorem budgetEnd_le_deadline (hd : r.deadline = some d) (start : Nanos) :
    r.budgetEnd start ≤ d := by
  simp only [budgetEnd, hd]
  exact Int.min_le_right _ _

/-- Of turns in time, at most one is booked when the budget is spent. -/
theorem bookedFrom_le_one {stop : Instant} {t : Trace} (h : t.Pairwise (InTime stop))
    (hstop : stop ≤ d) : Trace.bookedFrom t stage d ≤ 1 := by
  induction t with
  | nil => exact Nat.zero_le 1
  | cons e t ih =>
      obtain ⟨hlater, hrest⟩ := List.pairwise_cons.mp h
      rw [Trace.bookedFrom_cons]
      cases he : e.bookedFrom stage d with
      | false => exact ih hrest
      | true =>
          have hnone : Trace.bookedFrom t stage d = 0 := by
            refine List.countP_eq_zero.mpr fun later hmem hlate => ?_
            obtain ⟨time, -, hstart, htime⟩ := Event.start?_of_bookedFrom he
            obtain ⟨next, hnext, -, -⟩ := Event.start?_of_bookedFrom hlate
            have hbefore := (hlater later hmem time next hstart hnext).1
            lia
          rw [hnone]
          exact Nat.le_refl 1

theorem Course.bookedFrom_le (h : Course r script start made w run)
    (hd : r.budgetEnd start ≤ d) :
    run.trace.bookedFrom stage d ≤ if stage = r.stage then 1 else 0 := by
  by_cases hs : stage = r.stage
  · rw [if_pos hs]
    exact bookedFrom_le_one h.inTime hd
  · rw [if_neg hs, Trace.bookedFrom_eq_zero fun e he hstage => hs (h.stage_eq he hstage)]

/-! ## Runs that do not end -/

theorem Endless.bookedFrom_eq_zero {t : Trace} (h : Endless r script start fuel made w t)
    (hd : r.budgetEnd start ≤ d) : t.bookedFrom stage d = 0 := by
  refine List.countP_eq_zero.mpr fun e he hlate => ?_
  obtain ⟨time, -, hstart, htime⟩ := Event.start?_of_bookedFrom hlate
  have hleft := h.begun_lt e he time hstart
  lia

theorem bookedFrom_events (hd : r.budgetEnd w.clock.now ≤ d) :
    (r.events script w).bookedFrom stage d ≤ if stage = r.stage then 1 else 0 := by
  rcases events_cases r script w with ⟨run, -, hc, hevents⟩ | ⟨-, hendless | hevents⟩
  · rw [hevents]
    exact hc.bookedFrom_le hd
  · rw [hendless.bookedFrom_eq_zero hd]
    exact Nat.zero_le _
  · rw [hevents]
    exact Nat.zero_le _

end Retrier

end Settle
