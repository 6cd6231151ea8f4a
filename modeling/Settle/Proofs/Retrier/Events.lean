import Settle.Proofs.Retrier.Outcome

/-! # Runs that do not end

A run is left unfinished when its calls can no longer be counted, and is not begun when the end of
its budget cannot be held. Its events are those of the calls that are counted. -/

namespace Settle.Retrier

variable {σ α : Type}

/-! ## Attempts -/

/-- The events of at most `fuel` further calls after `made` others, whether or not the run is over
by then. -/
def attempts (r : Retrier σ) (script : Nat → Reply (Except Setback α)) (start : Nanos) :
    Nat → Nat → World σ → Trace
  | 0, made, w => ((r.withdrawal? start made w : Option (Run σ α)).map Run.trace).getD []
  | fuel + 1, made, w =>
    match r.attempt script start made w with
    | .done run => run.trace
    | .again events next => events ++ attempts r script start fuel (made + 1) next

/-- How `fuel` calls after `made` others do not end a run: each of them fails retryably with time
left, and the signal is not raised by the time of the next one. -/
inductive Endless (r : Retrier σ) (script : Nat → Reply (Except Setback α)) (start : Nanos) :
    Nat → Nat → World σ → Trace → Prop where
  | counted {made w} (hw : w.clock.raised = false) (ht : (r.takeTurn w).clock.raised = false) :
      Endless r script start 0 made w []
  | again {fuel made w cause delay t} (hw : w.clock.raised = false)
      (ht : (r.takeTurn w).clock.raised = false)
      (ha : (script made).answer = .error (.retryable cause))
      (hn : r.next start (made + 1) (r.afterCall script made w).clock.now = .retryAfter delay)
      (rest : Endless r script start fuel (made + 1) (r.afterBackoff script made delay w) t) :
      Endless r script start (fuel + 1) made w (r.opening w ++
        .retrying r.action (made + 1) (r.afterCall script made w).clock.now delay cause :: t)

variable {r : Retrier σ} {script : Nat → Reply (Except Setback α)} {start : Nanos}
  {made fuel n : Nat} {w : World σ} {run : Run σ α} {t : Trace}

theorem attempts_of_loop (h : r.loop script start fuel made w = some run) :
    r.attempts script start fuel made w = run.trace := by
  induction fuel generalizing made w run with
  | zero =>
      rw [loop] at h
      rw [attempts, h]
      rfl
  | succ fuel ih =>
      cases ha : r.attempt script start made w with
      | done ended =>
          obtain rfl : ended = run := by simpa [loop, ha] using h
          rw [attempts, ha]
      | again events next =>
          simp only [loop, ha] at h
          obtain ⟨rest, hrest, rfl⟩ := Option.map_eq_some_iff.mp h
          rw [attempts, ha]
          exact congrArg (events ++ ·) (ih hrest)

theorem endless_of_loop (h : r.loop script start fuel made w = none) :
    Endless r script start fuel made w (r.attempts script start fuel made w) := by
  induction fuel generalizing made w with
  | zero =>
      rw [loop] at h
      obtain ⟨hw, ht⟩ := withdrawal?_eq_none_iff.mp h
      rw [attempts, h]
      exact .counted hw ht
  | succ fuel ih =>
      cases ha : r.attempt script start made w with
      | done ended => simp [loop, ha] at h
      | again events next =>
          obtain ⟨cause, delay, hw, ht, hanswer, hn, rfl, rfl⟩ := attempt_eq_again ha
          rw [loop, ha] at h
          have hrest := ih (Option.map_eq_none_iff.mp h)
          rw [attempts, ha]
          simp only [List.append_assoc, List.singleton_append]
          exact .again hw ht hanswer hn hrest

theorem Endless.unraised (h : Endless r script start fuel made w t) : w.clock.raised = false := by
  cases h with
  | counted hw | again hw => exact hw

theorem Endless.calls_eq (h : Endless r script start fuel made w t) : t.calls r.stage = fuel := by
  induction h with
  | counted => rfl
  | again _ _ _ _ _ ih => rw [calls_attempt rfl, ih, Nat.add_comm]

theorem Endless.asks (h : Endless r script start fuel made w t) (hn : made ≤ n)
    (hlt : n < made + fuel) : AsksAgain script n := by
  induction h with
  | counted => omega
  | @again fuel made w cause delay t _ _ ha _ _ ih =>
      rcases Nat.eq_or_lt_of_le hn with rfl | hlater
      · exact ⟨cause, ha⟩
      · exact ih hlater (by omega)

theorem Endless.stage_eq (h : Endless r script start fuel made w t) {e : Event} {stage : Stage}
    (he : e ∈ t) (hs : e.stage? = some stage) : stage = r.stage := by
  induction h with
  | counted => cases he
  | again _ _ _ _ _ ih =>
      simp only [opening, booking, List.cons_append, List.nil_append, List.mem_cons] at he
      rcases he with rfl | rfl | rfl | he
      · exact (Option.some.inj hs).symm
      · exact (Option.some.inj hs).symm
      · cases hs
      · exact ih he

/-! ## Runs -/

/-- The events of a run, which are those of all calls that are counted if it does not end. -/
def events (r : Retrier σ) (script : Nat → Reply (Except Setback α)) (w : World σ) : Trace :=
  if ((w.clock.now + min r.policy.budget .year : Nanos) : Instant) ≤ Instant.latest then
    r.attempts script w.clock.now maxAttempts 0 w
  else []

theorem events_of_holdsEnd (hb : r.HoldsEnd w.clock.now) :
    r.events script w = r.attempts script w.clock.now maxAttempts 0 w := if_pos hb

theorem events_of_not_holdsEnd (hb : ¬ r.HoldsEnd w.clock.now) : r.events script w = [] :=
  if_neg hb

theorem events_of_run (h : r.run script w = some run) : r.events script w = run.trace := by
  have hb := (run_course h).1
  rw [run_eq_loop hb] at h
  rw [events_of_holdsEnd hb, attempts_of_loop h]

theorem endless_of_run (hb : r.HoldsEnd w.clock.now) (h : r.run script w = none) :
    Endless r script w.clock.now maxAttempts 0 w (r.events script w) := by
  rw [run_eq_loop hb] at h
  rw [events_of_holdsEnd hb]
  exact endless_of_loop h

/-- A run takes its course to the end, goes on for longer than calls count, or is not begun. -/
theorem events_cases (r : Retrier σ) (script : Nat → Reply (Except Setback α)) (w : World σ) :
    (∃ run, r.run script w = some run ∧ Course r script w.clock.now 0 w run ∧
        r.events script w = run.trace) ∨
      r.run script w = none ∧
        (Endless r script w.clock.now maxAttempts 0 w (r.events script w) ∨
          r.events script w = []) := by
  cases h : r.run script w with
  | some run => exact .inl ⟨run, rfl, (run_course h).2, events_of_run h⟩
  | none =>
      by_cases hb : r.HoldsEnd w.clock.now
      · exact .inr ⟨rfl, .inl (endless_of_run hb h)⟩
      · exact .inr ⟨rfl, .inr (events_of_not_holdsEnd hb)⟩

theorem stage_eq_of_events {e : Event} {stage : Stage} (he : e ∈ r.events script w)
    (hs : e.stage? = some stage) : stage = r.stage := by
  rcases events_cases r script w with ⟨run, -, hc, hevents⟩ | ⟨-, hendless | hevents⟩
  · exact hc.stage_eq (hevents ▸ he) hs
  · exact hendless.stage_eq he hs
  · simp [hevents] at he

theorem calls_events (hb : r.HoldsEnd w.clock.now) (h : r.run script w = none) :
    (r.events script w).calls r.stage = maxAttempts := (endless_of_run hb h).calls_eq

/-- A run is left unfinished only if all calls that are counted ask for another attempt. -/
theorem run_eq_none (hb : r.HoldsEnd w.clock.now) (h : r.run script w = none) :
    ∀ n, n < maxAttempts → AsksAgain script n := by
  intro n hn
  exact (endless_of_run hb h).asks (Nat.zero_le n) (by rwa [Nat.zero_add])

end Settle.Retrier
