import Settle.Proofs.Clock
import Settle.Proofs.Trace

/-! # The courses a run can take

The rules say everything one attempt can do. They do not count down fuel, so they describe a run
of any length, and the loop follows them. -/

namespace Settle

namespace Run

variable {σ α : Type} (events : Trace) (run : Run σ α)

@[simp] theorem world_after : (run.after events).world = run.world := rfl

@[simp] theorem trace_after : (run.after events).trace = events ++ run.trace := rfl

end Run

namespace Retrier

variable {σ α : Type}

theorem withdrawn_result (r : Retrier σ) (start : Nanos) (attempts : Nat) (w : World σ) :
    (r.withdrawn start attempts w : Run σ α).result =
      .error ⟨.cancelled, attempts, w.clock.now - start⟩ := rfl

@[simp] theorem withdrawn_world (r : Retrier σ) (start : Nanos) (attempts : Nat) (w : World σ) :
    (r.withdrawn start attempts w : Run σ α).world = w := rfl

@[simp] theorem withdrawn_trace (r : Retrier σ) (start : Nanos) (attempts : Nat) (w : World σ) :
    (r.withdrawn start attempts w : Run σ α).trace = [.cancelled r.action attempts] := rfl

/-- The world at the end of the call that follows `made` others. -/
def afterCall (r : Retrier σ) (script : Nat → Reply (Except Setback α)) (made : Nat)
    (w : World σ) : World σ :=
  (r.takeTurn w).answered (script made)

/-- The world when the wait of `delay` that follows that call is over. -/
def afterBackoff (r : Retrier σ) (script : Nat → Reply (Except Setback α)) (made : Nat)
    (delay : Nanos) (w : World σ) : World σ where
  clock := (r.afterCall script made w).clock.wait delay
  gate := (r.afterCall script made w).gate

/-- The events that open an attempt with a call. -/
def opening (r : Retrier σ) (w : World σ) : Trace :=
  [r.booking w, .called r.stage (r.takeTurn w).clock.now]

/-- How a run that began at `start` goes on after `made` calls. -/
inductive Course (r : Retrier σ) (script : Nat → Reply (Except Setback α)) (start : Nanos) :
    Nat → World σ → Run σ α → Prop where
  | withdrawn {made w} (hw : w.clock.raised = true) :
      Course r script start made w (r.withdrawn start made w)
  | interrupted {made w} (hw : w.clock.raised = false)
      (ht : (r.takeTurn w).clock.raised = true) :
      Course r script start made w ((r.withdrawn start made (r.takeTurn w)).after [r.booking w])
  | succeeded {made w v} (hw : w.clock.raised = false)
      (ht : (r.takeTurn w).clock.raised = false) (ha : (script made).answer = .ok v) :
      Course r script start made w
        ⟨.ok v, r.afterCall script made w, r.opening w ++
          [.succeeded r.action (made + 1) ((r.afterCall script made w).clock.now - start)]⟩
  | refused {made w cause} (hw : w.clock.raised = false)
      (ht : (r.takeTurn w).clock.raised = false)
      (ha : (script made).answer = .error (.fatal cause)) :
      Course r script start made w
        ⟨.error ⟨cause.reason, made + 1, (r.afterCall script made w).clock.now - start⟩,
          r.afterCall script made w, r.opening w ++ [.refused r.action (made + 1) cause]⟩
  | exhausted {made w cause} (hw : w.clock.raised = false)
      (ht : (r.takeTurn w).clock.raised = false)
      (ha : (script made).answer = .error (.retryable cause))
      (hn : r.next start (made + 1) (r.afterCall script made w).clock.now = .giveUp) :
      Course r script start made w
        ⟨.error ⟨.timedOut cause, made + 1, (r.afterCall script made w).clock.now - start⟩,
          r.afterCall script made w, r.opening w ++
          [.exhausted r.action (made + 1) ((r.afterCall script made w).clock.now - start) cause]⟩
  | retried {made w cause delay run} (hw : w.clock.raised = false)
      (ht : (r.takeTurn w).clock.raised = false)
      (ha : (script made).answer = .error (.retryable cause))
      (hn : r.next start (made + 1) (r.afterCall script made w).clock.now = .retryAfter delay)
      (rest : Course r script start (made + 1) (r.afterBackoff script made delay w) run) :
      Course r script start made w (run.after (r.opening w ++
        [.retrying r.action (made + 1) (r.afterCall script made w).clock.now delay cause]))

variable {r : Retrier σ} {script : Nat → Reply (Except Setback α)} {start : Nanos}
  {made : Nat} {w : World σ} {run : Run σ α}

@[simp] theorem afterBackoff_clock (delay : Nanos) :
    (r.afterBackoff script made delay w).clock =
      (r.afterCall script made w).clock.wait delay := rfl

/-! ## The events of an attempt -/

@[simp] theorem booked?_booking (r : Retrier σ) (w : World σ) :
    (r.booking w).booked? = some w.clock.now := rfl

@[simp] theorem calls_booking (r : Retrier σ) (w : World σ) (stage : Stage) :
    Trace.calls [r.booking w] stage = 0 := rfl

@[simp] theorem calls_opening (r : Retrier σ) (w : World σ) :
    (r.opening w).calls r.stage = 1 := by
  simp [opening, booking, Trace.calls_cons, Event.isCall]

theorem booked_mem_attempt {x e : Event} {rest : Trace} {t : Nanos} (hx : x.start? = none)
    (he : e ∈ r.opening w ++ x :: rest) (ht : e.booked? = some t) :
    t = w.clock.now ∨ e ∈ rest := by
  simp only [opening, List.cons_append, List.nil_append, List.mem_cons] at he
  rcases he with rfl | rfl | rfl | he
  · exact .inl (Option.some.inj ht).symm
  · cases ht
  · cases e <;> simp_all [Event.start?, Event.booked?]
  · exact .inr he

theorem calls_attempt {x : Event} {rest : Trace} (hx : x.start? = none) :
    Trace.calls (r.opening w ++ x :: rest) r.stage = 1 + Trace.calls rest r.stage := by
  have hquiet : x.isCall r.stage = false := by
    cases x <;> simp_all [Event.start?, Event.isCall]
  simp [Trace.calls_cons, hquiet]

/-- The events of an attempt and those after it are its turn, its call, what follows the call, and
those after it. -/
theorem split_events {x e : Event} {rest before after : Trace}
    (h : r.opening w ++ x :: rest = before ++ e :: after) :
    (before = [] ∧ e = r.booking w ∧
        after = .called r.stage (r.takeTurn w).clock.now :: x :: rest) ∨
      (before = [r.booking w] ∧ e = .called r.stage (r.takeTurn w).clock.now ∧
        after = x :: rest) ∨
      (before = r.opening w ∧ e = x ∧ after = rest) ∨
      ∃ mid, before = r.opening w ++ x :: mid ∧ rest = mid ++ e :: after := by
  have hsplit : (r.opening w ++ [x]) ++ rest = before ++ e :: after := by
    simpa using h
  rcases Trace.split_append hsplit with ⟨mid, hfirst, rfl⟩ | ⟨mid, rfl, hrest⟩
  · rcases Trace.split_cons hfirst with ⟨rfl, rfl, rfl⟩ | ⟨front, rfl, hpair⟩
    · exact .inl ⟨rfl, rfl, rfl⟩
    · rcases Trace.split_pair hpair with ⟨rfl, rfl, rfl⟩ | ⟨rfl, rfl, rfl⟩
      · exact .inr (.inl ⟨rfl, rfl, rfl⟩)
      · exact .inr (.inr (.inl ⟨rfl, rfl, rfl⟩))
  · exact .inr (.inr (.inr ⟨mid, by simp, hrest⟩))

theorem split_attempt {x e : Event} {rest before after : Trace} {t : Nanos}
    (hx : x.start? = none) (he : e.start? = some t)
    (h : r.opening w ++ x :: rest = before ++ e :: after) :
    (before = [] ∧ e = r.booking w ∧
        after = .called r.stage (r.takeTurn w).clock.now :: x :: rest) ∨
      (before = [r.booking w] ∧ e = .called r.stage (r.takeTurn w).clock.now ∧
        after = x :: rest) ∨
      ∃ mid, before = r.opening w ++ x :: mid ∧ rest = mid ++ e :: after := by
  rcases split_events h with hturn | hcall | ⟨-, rfl, -⟩ | hlater
  · exact .inl hturn
  · exact .inr (.inl hcall)
  · rw [hx] at he
    cases he
  · exact .inr (.inr hlater)

theorem split_call {x : Event} {rest before after : Trace} {stage : Stage} {t : Nanos}
    (hx : x.start? = none)
    (h : r.opening w ++ x :: rest = before ++ .called stage t :: after) :
    (before = [r.booking w] ∧ t = (r.takeTurn w).clock.now ∧ after = x :: rest) ∨
      ∃ mid, before = r.opening w ++ x :: mid ∧ rest = mid ++ .called stage t :: after := by
  rcases split_attempt hx rfl h with ⟨-, he, -⟩ | ⟨hb, he, ha⟩ | hlater
  · cases he
  · exact .inl ⟨hb, (Event.called.inj he).2, ha⟩
  · exact .inr hlater

theorem split_booking {x : Event} {rest before after : Trace} {stage : Stage} {action : String}
    {t wait : Nanos} {announced : Bool} (hx : x.start? = none)
    (h : r.opening w ++ x :: rest =
      before ++ .reserved stage action t wait announced :: after) :
    (before = [] ∧ wait = r.turnWait w ∧
        after = .called r.stage (r.takeTurn w).clock.now :: x :: rest) ∨
      ∃ mid, before = r.opening w ++ x :: mid ∧
        rest = mid ++ .reserved stage action t wait announced :: after := by
  rcases split_attempt hx rfl h with ⟨hb, he, ha⟩ | ⟨-, he, -⟩ | hlater
  · exact .inl ⟨hb, (Event.reserved.inj he).2.2.2.1, ha⟩
  · cases he
  · exact .inr hlater

theorem Course.stage_eq (h : Course r script start made w run) {e : Event} {stage : Stage}
    (he : e ∈ run.trace) (hs : e.stage? = some stage) : stage = r.stage := by
  induction h with
  | withdrawn | interrupted | succeeded | refused | exhausted =>
      simp only [Run.trace_after, withdrawn_trace, opening, booking, List.cons_append,
        List.nil_append, List.mem_cons, List.not_mem_nil, or_false] at he
      rcases he with rfl | rfl | rfl <;> simp_all [Event.stage?]
  | retried _ _ _ _ _ ih =>
      simp only [Run.trace_after, opening, booking, List.cons_append, List.nil_append,
        List.mem_cons] at he
      rcases he with rfl | rfl | rfl | he
      · exact (Option.some.inj hs).symm
      · exact (Option.some.inj hs).symm
      · cases hs
      · exact ih he

theorem Course.calls_other (h : Course r script start made w run) {stage : Stage}
    (hs : stage ≠ r.stage) : run.trace.calls stage = 0 :=
  Trace.calls_eq_zero fun _ he hstage => hs (h.stage_eq he hstage)

theorem Course.polls_eq_false (h : Course r script start made w run) :
    ∀ e ∈ run.trace, e.polls = false := by
  induction h with
  | withdrawn | interrupted | succeeded | refused | exhausted =>
      simp [opening, booking, Event.polls]
  | retried _ _ _ _ _ ih => simpa [opening, booking, Event.polls] using ih

theorem Course.not_polls (h : Course r script start made w run) : ¬ run.trace.Polls := by
  rintro ⟨e, he, hpolls⟩
  rw [h.polls_eq_false e he] at hpolls
  cases hpolls

theorem Course.begun (h : Course r script start made w run) (hw : w.clock.raised = false) :
    run.trace.begun? r.stage = some w.clock.now := by
  have hbooking (rest : Trace) :
      Trace.begun? (r.booking w :: rest) r.stage = some w.clock.now := by
    simp [Trace.begun?, booking, Event.stage?, Event.booked?]
  cases h with
  | withdrawn hraised =>
      rw [hraised] at hw
      cases hw
  | interrupted | succeeded | refused | exhausted | retried =>
      exact hbooking _

/-! ## The loop follows the rules -/

/-- The answer to call number `n` asks for another attempt. -/
def AsksAgain (script : Nat → Reply (Except Setback α)) (n : Nat) : Prop :=
  ∃ cause, (script n).answer = .error (.retryable cause)

theorem withdrawal?_of_raised (hw : w.clock.raised = true) :
    (r.withdrawal? start made w : Option (Run σ α)) = some (r.withdrawn start made w) := if_pos hw

theorem withdrawal?_eq_none_iff : (r.withdrawal? start made w : Option (Run σ α)) = none ↔
    w.clock.raised = false ∧ (r.takeTurn w).clock.raised = false := by
  cases hw : w.clock.raised <;> cases ht : (r.takeTurn w).clock.raised <;>
    simp [withdrawal?, hw, ht]

theorem withdrawal?_course (h : r.withdrawal? start made w = some run) :
    Course r script start made w run := by
  cases hw : w.clock.raised with
  | true =>
      obtain rfl := Option.some.inj ((withdrawal?_of_raised hw).symm.trans h)
      exact .withdrawn hw
  | false =>
      cases ht : (r.takeTurn w).clock.raised with
      | true =>
          obtain rfl : _ = run := by simpa [withdrawal?, hw, ht] using h
          exact .interrupted hw ht
      | false =>
          rw [withdrawal?_eq_none_iff.mpr ⟨hw, ht⟩] at h
          cases h

theorem attempt_of_withdrawal (h : r.withdrawal? start made w = some run) :
    r.attempt script start made w = .done run := by
  rw [attempt, h]

theorem loop_of_withdrawal (h : r.withdrawal? start made w = some run) (fuel : Nat) :
    r.loop script start fuel made w = some run := by
  cases fuel with
  | zero => exact h
  | succ fuel => rw [loop, attempt_of_withdrawal h]

/-- An attempt that comes to its call goes by the answer. -/
theorem attempt_called (hw : w.clock.raised = false)
    (ht : (r.takeTurn w).clock.raised = false) :
    r.attempt script start made w =
      (r.conclude start (made + 1) (r.afterCall script made w) (script made).answer).after
        (r.opening w) := by
  rw [attempt, withdrawal?_eq_none_iff.mpr ⟨hw, ht⟩]
  rfl

/-- An attempt that leads to another one failed retryably with time left. -/
theorem attempt_eq_again {events : Trace} {next : World σ}
    (h : r.attempt script start made w = .again events next) :
    ∃ cause delay, w.clock.raised = false ∧ (r.takeTurn w).clock.raised = false ∧
      (script made).answer = .error (.retryable cause) ∧
      r.next start (made + 1) (r.afterCall script made w).clock.now = .retryAfter delay ∧
      events = r.opening w ++
        [.retrying r.action (made + 1) (r.afterCall script made w).clock.now delay cause] ∧
      next = r.afterBackoff script made delay w := by
  cases hcall : (r.withdrawal? start made w : Option (Run σ α)) with
  | some run =>
      rw [attempt_of_withdrawal hcall] at h
      cases h
  | none =>
      obtain ⟨hw, ht⟩ := withdrawal?_eq_none_iff.mp hcall
      rw [attempt_called hw ht] at h
      rcases ha : (script made).answer with (cause | cause) | v
      · cases hn : r.next start (made + 1) (r.afterCall script made w).clock.now with
        | giveUp =>
            simp only [ha, conclude, hn, Step.after] at h
            cases h
        | retryAfter delay =>
            simp only [ha, conclude, hn, Step.after, Step.again.injEq] at h
            exact ⟨cause, delay, hw, ht, rfl, rfl, h.1.symm, h.2.symm⟩
      · simp [ha, conclude, Step.after] at h
      · simp [ha, conclude, Step.after] at h

/-- One attempt ends the run by a rule, or is the start of a course that goes on. -/
theorem attempt_course (r : Retrier σ) (script : Nat → Reply (Except Setback α))
    (start : Nanos) (made : Nat) (w : World σ) :
    (∃ run, r.attempt script start made w = .done run ∧ Course r script start made w run) ∨
    ∃ events next, r.attempt script start made w = .again events next ∧
      events.calls r.stage = 1 ∧ AsksAgain script made ∧
      ∀ run, Course r script start (made + 1) next run →
        Course r script start made w (run.after events) := by
  cases hcall : (r.withdrawal? start made w : Option (Run σ α)) with
  | some run => exact .inl ⟨run, attempt_of_withdrawal hcall, withdrawal?_course hcall⟩
  | none =>
      obtain ⟨hw, ht⟩ := withdrawal?_eq_none_iff.mp hcall
      rw [attempt_called hw ht]
      rcases ha : (script made).answer with (cause | cause) | v
      · cases hn : r.next start (made + 1) (r.afterCall script made w).clock.now with
        | giveUp =>
            refine .inl ⟨_, ?_, .exhausted hw ht ha hn⟩
            simp only [conclude, hn]
            rfl
        | retryAfter delay =>
            refine .inr ⟨_, _, ?_, calls_attempt rfl, ⟨cause, ha⟩,
              fun run rest => .retried hw ht ha hn rest⟩
            simp only [conclude, hn]
            rfl
      · exact .inl ⟨_, rfl, .refused hw ht ha⟩
      · exact .inl ⟨_, rfl, .succeeded hw ht ha⟩

/-- Whatever the loop returns came about by the rules. -/
theorem loop_course {fuel : Nat} (h : r.loop script start fuel made w = some run) :
    Course r script start made w run := by
  induction fuel generalizing made w run with
  | zero => exact withdrawal?_course h
  | succ fuel ih =>
      rcases attempt_course r script start made w with
        ⟨ended, ha, hc⟩ | ⟨events, next, ha, -, -, hc⟩
      · obtain rfl : ended = run := by simpa [loop, ha] using h
        exact hc
      · rw [loop, ha] at h
        obtain ⟨rest, hrest, rfl⟩ := Option.map_eq_some_iff.mp h
        exact hc rest (ih hrest)

/-- The policy's budget, or the year that stands in for it, ends at a point in time. -/
def HoldsEnd (r : Retrier σ) (start : Nanos) : Prop :=
  ((start + min r.policy.budget .year : Nanos) : Instant) ≤ Instant.latest

theorem run_eq_loop (hb : r.HoldsEnd w.clock.now) :
    r.run script w = r.loop script w.clock.now maxAttempts 0 w := if_pos hb

theorem run_of_not_holdsEnd (hb : ¬ r.HoldsEnd w.clock.now) : r.run script w = none := if_neg hb

theorem run_course (h : r.run script w = some run) :
    r.HoldsEnd w.clock.now ∧ Course r script w.clock.now 0 w run := by
  unfold Retrier.run at h
  split at h
  · next hb => exact ⟨hb, loop_course h⟩
  · cases h

/-! ## Answers that are never asked for -/

theorem Course.calls_pos (h : Course r script start made w run) (hw : w.clock.raised = false)
    (ht : (r.takeTurn w).clock.raised = false) : 0 < run.trace.calls r.stage := by
  cases h with
  | withdrawn hraised =>
      rw [hw] at hraised
      cases hraised
  | interrupted _ hraised =>
      rw [ht] at hraised
      cases hraised
  | succeeded | refused | exhausted | retried =>
      simp only [Run.trace_after, Trace.calls_append, calls_opening]
      omega

theorem attempt_congr {script' : Nat → Reply (Except Setback α)}
    (h : w.clock.raised = false → (r.takeTurn w).clock.raised = false →
      script made = script' made) :
    r.attempt script' start made w = r.attempt script start made w := by
  cases hcall : (r.withdrawal? start made w : Option (Run σ α)) with
  | some run => rw [attempt_of_withdrawal hcall, attempt_of_withdrawal hcall]
  | none =>
      obtain ⟨hw, ht⟩ := withdrawal?_eq_none_iff.mp hcall
      rw [attempt_called hw ht, attempt_called hw ht, afterCall, afterCall, h hw ht]

theorem loop_congr {fuel : Nat} {script' : Nat → Reply (Except Setback α)}
    (h : r.loop script start fuel made w = some run)
    (heq : ∀ n, made ≤ n → n < made + run.trace.calls r.stage → script n = script' n) :
    r.loop script' start fuel made w = some run := by
  induction fuel generalizing made w run with
  | zero => exact h
  | succ fuel ih =>
      have hattempt : r.attempt script' start made w = r.attempt script start made w := by
        refine attempt_congr fun hw ht => heq made (Nat.le_refl made) ?_
        exact Nat.lt_add_of_pos_right ((loop_course h).calls_pos hw ht)
      rcases attempt_course r script start made w with
        ⟨ended, ha, -⟩ | ⟨events, next, ha, hcalls, -, -⟩
      · rw [loop, ha] at h
        rw [loop, hattempt, ha]
        exact h
      · rw [loop, ha] at h
        obtain ⟨rest, hrest, rfl⟩ := Option.map_eq_some_iff.mp h
        rw [loop, hattempt, ha]
        refine Option.map_eq_some_iff.mpr ⟨rest, ih hrest fun n hn hlt => ?_, rfl⟩
        refine heq n (Nat.le_of_succ_le hn) ?_
        rw [Run.trace_after, Trace.calls_append, hcalls, ← Nat.add_assoc]
        exact hlt

/-- Scripts that agree on the calls of a run have that run in common. -/
theorem run_congr {script' : Nat → Reply (Except Setback α)} (h : r.run script w = some run)
    (heq : ∀ n, n < run.trace.calls r.stage → script n = script' n) :
    r.run script' w = some run := by
  have hb := (run_course h).1
  rw [run_eq_loop hb] at h ⊢
  exact loop_congr h fun n _ hn => heq n (by rwa [Nat.zero_add] at hn)

end Retrier

end Settle
