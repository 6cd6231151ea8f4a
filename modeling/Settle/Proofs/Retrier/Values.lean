import Mathlib.Order.Bounds.Basic
import Settle.Proofs.Retrier.Outcome

/-! # The last call and the value it leaves

A loop hands the value of its last call on and looks at no value itself. A run that is neither out
of time nor withdrawn ends with the first call that does not ask for another attempt. -/

namespace Settle

/-- The step with another value. -/
def Step.map {σ α β : Type} (f : α → β) : Step σ α → Step σ β
  | .done run => .done (run.map f)
  | .again events w => .again events w

@[simp] theorem Run.result_map {σ α β : Type} (f : α → β) (run : Run σ α) :
    (run.map f).result = run.result.map f := rfl

theorem Step.map_after {σ α β : Type} (f : α → β) (events : Trace) (step : Step σ α) :
    (step.after events).map f = (step.map f).after events := by
  cases step <;> rfl

namespace Retrier

variable {σ α β : Type} {r : Retrier σ} {script : Nat → Reply (Except Setback α)} {w : World σ}
  {run : Run σ α}

/-! ## Values -/

/-- The script with other values. -/
def mapped (f : α → β) (script : Nat → Reply (Except Setback α)) :
    Nat → Reply (Except Setback β) :=
  fun n => (script n).map (Except.map f)

theorem conclude_map (f : α → β) (r : Retrier σ) (start : Nanos) (attempt : Nat) (w : World σ)
    (answer : Except Setback α) :
    r.conclude start attempt w (answer.map f) = (r.conclude start attempt w answer).map f := by
  rcases answer with (cause | cause) | v
  · simp only [Except.map, conclude]
    cases r.next start attempt w.clock.now <;> rfl
  · rfl
  · rfl

theorem withdrawal?_map (f : α → β) (start : Nanos) (made : Nat) :
    (r.withdrawal? start made w : Option (Run σ β)) =
      (r.withdrawal? start made w : Option (Run σ α)).map (Run.map f) := by
  unfold withdrawal?
  split
  · rfl
  · split <;> rfl

theorem attempt_map (f : α → β) (start : Nanos) (made : Nat) :
    r.attempt (mapped f script) start made w = (r.attempt script start made w).map f := by
  have hmap := withdrawal?_map (r := r) (w := w) f start made
  cases hcall : (r.withdrawal? start made w : Option (Run σ α)) with
  | some run =>
      rw [hcall] at hmap
      rw [attempt_of_withdrawal hcall, attempt_of_withdrawal hmap]
      rfl
  | none =>
      obtain ⟨hw, ht⟩ := withdrawal?_eq_none_iff.mp hcall
      rw [attempt_called hw ht, attempt_called hw ht, Step.map_after, ← conclude_map]
      rfl

theorem loop_map (f : α → β) (start : Nanos) (fuel made : Nat) :
    r.loop (mapped f script) start fuel made w =
      (r.loop script start fuel made w).map (Run.map f) := by
  induction fuel generalizing made w with
  | zero => exact withdrawal?_map f start made
  | succ fuel ih =>
      rw [loop, loop, attempt_map]
      cases r.attempt script start made w with
      | done run => rfl
      | again events next =>
          simp only [Step.map, ih, Option.map_map]
          rfl

/-- A run of the script with other values has the other value in its result. -/
theorem run_map (f : α → β) :
    r.run (mapped f script) w = (r.run script w).map (Run.map f) := by
  by_cases hb : r.HoldsEnd w.clock.now
  · rw [run_eq_loop hb, run_eq_loop hb, loop_map]
  · rw [run_of_not_holdsEnd hb, run_of_not_holdsEnd hb]
    rfl

/-! ## The last call -/

theorem Ending.last {made calls : Nat} {raised : Bool} {verdict : Except Reason α}
    (h : Ending script made raised calls verdict) (hc : verdict ≠ .error .cancelled) :
    ∃ n, calls = n + 1 ∧ verdict = (script n).answer.mapError Setback.reason := by
  cases h with
  | @succeeded n v _ ha => exact ⟨n, rfl, by rw [ha]; rfl⟩
  | @refused n cause _ ha => exact ⟨n, rfl, by rw [ha]; rfl⟩
  | @exhausted n cause _ ha => exact ⟨n, rfl, by rw [ha]; rfl⟩
  | withdrawn => exact (hc rfl).elim

theorem run_last (h : r.run script w = some run) (hc : run.verdict ≠ .error .cancelled) :
    ∃ n, run.trace.calls r.stage = n + 1 ∧
      run.verdict = (script n).answer.mapError Setback.reason :=
  (run_ending h).2.last hc

/-- The calls of a run that ends with an answer, counted up to the first one that does not ask for
another attempt. -/
theorem run_decided (h : r.run script w = some run) (hc : run.verdict ≠ .error .cancelled)
    (ht : ∀ last, run.verdict ≠ .error (.timedOut last)) :
    IsLeast {n | 0 < n ∧ ¬ AsksAgain script (n - 1)} (run.trace.calls r.stage) ∧
      run.verdict =
        (script (run.trace.calls r.stage - 1)).answer.mapError Setback.reason := by
  obtain ⟨hbefore, -⟩ := run_ending h
  obtain ⟨n, hn, hverdict⟩ := run_last h hc
  rw [hn] at hbefore ⊢
  refine ⟨⟨⟨Nat.succ_pos n, ?_⟩, ?_⟩, hverdict⟩
  · rintro ⟨cause, hcause⟩
    refine ht cause ?_
    rw [hverdict]
    change (script n).answer = _ at hcause
    rw [hcause]
    rfl
  · rintro m ⟨hpos, hends⟩
    refine Nat.le_of_not_lt fun hlt => hends (hbefore (m - 1) ?_)
    omega

end Retrier

end Settle
