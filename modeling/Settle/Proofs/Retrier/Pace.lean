import Mathlib.Data.Nat.Find
import Settle.Proofs.Retrier.FirstCall

/-! # The pace of a run that nothing holds up

Where turns come at once and nobody raises the signal, only calls and delays take time. Each call
then starts when all before it are over, or where the budget ends if that is earlier. A call that
is answered at the end of the budget or later is the last one. -/

namespace Settle

/-! ## Clocks without a signal -/

/-- The signal is not raised, and nothing will raise it. -/
def Clock.Unsignalled (c : Clock) : Prop := c.raised = false ∧ c.due = none

theorem Clock.Unsignalled.wait {c : Clock} (h : c.Unsignalled) (span : Nanos) :
    (c.wait span).Unsignalled ∧ (c.wait span).now = c.now + span := by
  obtain ⟨hraised, hdue⟩ := h
  simp [Clock.wait, hraised, hdue, Unsignalled]

theorem Clock.Unsignalled.finish {α : Type} {c : Clock} (h : c.Unsignalled) {reply : Reply α}
    (hi : reply.interrupts = false) : (reply.finish c).Unsignalled := by
  obtain ⟨hraised, hdue⟩ := h
  refine ⟨?_, by rw [Reply.finish_due, hdue]⟩
  by_cases htook : reply.took = 0 <;> simp [Reply.finish, hi, Clock.pass, htook, hraised, hdue]

/-! ## Calls and delays of a trace -/

/-- When a call of the stage starts. -/
def Event.callTime? (stage : Stage) : Event → Option Nanos
  | .called s time => if s = stage then some time else none
  | _ => none

/-- The number of an attempt that failed, and the delay that follows it. -/
def Event.retry? : Event → Option (Nat × Nanos)
  | .retrying _ attempt _ delay _ => some (attempt, delay)
  | _ => none

namespace Trace

/-- When the calls of a stage start, in order. -/
def callTimes (t : Trace) (stage : Stage) : List Nanos := t.filterMap (Event.callTime? stage)

/-- The failed attempts that are followed by others, with the delays between. -/
def retries (t : Trace) : List (Nat × Nanos) := t.filterMap Event.retry?

theorem length_callTimes (t : Trace) (stage : Stage) :
    (t.callTimes stage).length = t.calls stage := by
  induction t with
  | nil => rfl
  | cons e t ih =>
      rw [calls_cons, ← ih]
      cases e with
      | called s time =>
          by_cases hs : s = stage <;> simp [callTimes, Event.callTime?, Event.isCall, hs]
      | _ => rfl

end Trace

namespace Retrier

variable {σ α : Type} {r : Retrier σ} {script : Nat → Reply (Except Setback α)} {start : Nanos}
  {made n : Nat} {w : World σ} {run : Run σ α}

theorem callTimes_attempt {x : Event} {rest : Trace} (hx : x.start? = none) :
    Trace.callTimes (r.opening w ++ x :: rest) r.stage =
      (r.takeTurn w).clock.now :: rest.callTimes r.stage := by
  have hquiet : x.callTime? r.stage = none := by
    cases x <;> simp_all [Event.start?, Event.callTime?]
  have hcall : (Event.called r.stage (r.takeTurn w).clock.now).callTime? r.stage =
      some (r.takeTurn w).clock.now := if_pos rfl
  rw [Trace.callTimes, opening, List.cons_append, List.singleton_append,
    List.filterMap_cons_none rfl, List.filterMap_cons_some hcall, List.filterMap_cons_none hquiet]
  rfl

theorem retries_opening (rest : Trace) :
    Trace.retries (r.opening w ++ rest) = rest.retries := by
  simp [Trace.retries, opening, booking, List.filterMap_cons, Event.retry?]

/-! ## Runs without a signal -/

theorem takeTurn_unsignalled (hw : w.clock.Unsignalled) :
    (r.takeTurn w).clock.Unsignalled := by
  unfold takeTurn
  split
  · exact hw
  · exact (hw.wait _).1

theorem Course.unsignalled (h : Course r script start made w run) (hw : w.clock.Unsignalled)
    (hi : ∀ n, (script n).interrupts = false) : run.world.clock.Unsignalled := by
  induction h with
  | withdrawn => exact hw
  | interrupted => exact takeTurn_unsignalled hw
  | succeeded | refused | exhausted => exact (takeTurn_unsignalled hw).finish (hi _)
  | @retried made w cause delay run _ _ _ _ _ ih =>
      have hcall : (r.afterCall script made w).clock.Unsignalled :=
        (takeTurn_unsignalled hw).finish (hi made)
      exact ih (hcall.wait delay).1

/-! ## The pace -/

/-- Only calls and delays take the time of a run: no deadline and no jitter shorten its delays, its
turns come at once, and its calls leave the signal alone. -/
structure Unhindered (r : Retrier σ) (script : Nat → Reply (Except Setback α)) : Prop where
  deadline : r.deadline = none
  jitter : r.policy.jitter = false
  turns : ∀ now s, (r.gate.reserve r.action now s).1 = 0
  calls : ∀ n, (script n).interrupts = false

/-- When call number `n`, from zero, starts if all delays before it are waited out. -/
def pace (r : Retrier σ) (script : Nat → Reply (Except Setback α)) (start : Nanos) : Nat → Nanos
  | 0 => start
  | n + 1 => pace r script start n + (script n).took + r.policy.delay (n + 1)

/-- When the budget is spent, without a deadline. -/
def spentAt (r : Retrier σ) (start : Nanos) : Nanos :=
  if ((start + r.policy.budget : Nanos) : Instant) ≤ Instant.latest then start + r.policy.budget
  else start + .year

theorem spentAt_of_held (hheld : ((start + r.policy.budget : Nanos) : Instant) ≤ Instant.latest) :
    r.spentAt start = start + r.policy.budget := if_pos hheld

theorem spentAt_of_past (hpast : Instant.latest < ((start + r.policy.budget : Nanos) : Instant)) :
    r.spentAt start = start + .year := if_neg (Int.not_le.mpr hpast)

/-- Call number `n` is answered in time and asks for another attempt. -/
structure GoesOn (r : Retrier σ) (script : Nat → Reply (Except Setback α)) (start : Nanos)
    (n : Nat) : Prop where
  asks : AsksAgain script n
  inTime : r.pace script start n + (script n).took < r.spentAt start

/-- A world in which call number `n` is due: at its pace, or where the budget ends. -/
structure OnPace (r : Retrier σ) (script : Nat → Reply (Except Setback α)) (start : Nanos)
    (n : Nat) (w : World σ) : Prop where
  unsignalled : w.clock.Unsignalled
  now_eq : w.clock.now = min (r.pace script start n) (r.spentAt start)

theorem start_le_pace (n : Nat) : start ≤ r.pace script start n := by
  induction n with
  | zero => exact Nat.le_refl _
  | succ n ih =>
      refine Nat.le_trans ih ?_
      rw [pace, Nat.add_assoc]
      exact Nat.le_add_right _ _

theorem start_le_spentAt (r : Retrier σ) (start : Nanos) : start ≤ r.spentAt start := by
  unfold spentAt
  split
  · exact Nat.le_add_right _ _
  · exact Nat.le_add_right _ _

theorem budgetEnd_of_none (hd : r.deadline = none) (start : Nanos) :
    r.budgetEnd start = (r.spentAt start : Instant) := by
  simp only [budgetEnd, spentAt, hd]
  split <;> rfl

theorem onPace_zero (hw : w.clock.Unsignalled) :
    r.OnPace script w.clock.now 0 w := by
  refine ⟨hw, ?_⟩
  rw [pace, Nat.min_eq_left (start_le_spentAt r _)]

/-! ## One attempt -/

theorem takeTurn_of_unhindered (hu : r.Unhindered script) (w : World σ) :
    (r.takeTurn w).clock = w.clock := by
  rw [takeTurn, turnWait, if_pos (hu.turns _ _)]

theorem OnPace.afterCall (h : r.OnPace script start n w) (hu : r.Unhindered script) :
    (r.afterCall script n w).clock.Unsignalled ∧
      (r.afterCall script n w).clock.now =
        min (r.pace script start n) (r.spentAt start) + (script n).took := by
  refine ⟨?_, ?_⟩
  · change ((script n).finish (r.takeTurn w).clock).Unsignalled
    rw [takeTurn_of_unhindered hu]
    exact h.unsignalled.finish (hu.calls n)
  · rw [afterCall_now, takeTurn_of_unhindered hu, h.now_eq]

/-- Without jitter the delay after a failed attempt is the nominal one, up to the end of the
budget. -/
theorem next_of_unhindered (hu : r.Unhindered script) (hb : r.HoldsEnd start) {now : Nanos}
    (hs : start ≤ now) (hnow : now < r.spentAt start) (n : Nat) :
    r.next start n now = .retryAfter (min (r.policy.delay n) (r.spentAt start - now)) := by
  have hend := budgetEnd_of_none hu.deadline start
  have hleft : r.remaining start now = r.spentAt start - now := by
    rw [remaining, hend]
    lia
  have hpolicy : ¬ r.policy.budget ≤ now - start := by
    have hne := policy_next_ne_giveUp hb hs (by rw [hend]; lia) n
    rwa [Ne, Policy.next_eq_giveUp_iff] at hne
  have hzero : r.spentAt start - now ≠ 0 := by lia
  rw [Retrier.next, hleft, if_neg hzero, Policy.next, if_neg hpolicy]
  simp [hu.jitter]

theorem OnPace.unspent_iff (h : r.OnPace script start n w) (hu : r.Unhindered script) :
    (r.afterCall script n w).clock.now < r.spentAt start ↔
      r.pace script start n + (script n).took < r.spentAt start := by
  rw [(h.afterCall hu).2]
  lia

/-- The result that the answer to call number `n` gives a run that ends at `finish`. -/
def resultAt (script : Nat → Reply (Except Setback α)) (n : Nat) (elapsed : Nanos) :
    Except Failure α :=
  (script n).answer.mapError fun s => ⟨s.reason, n + 1, elapsed⟩

/-- What a run shows from call number `made` on, if call number `n` is its last one. -/
structure EndsAt (r : Retrier σ) (script : Nat → Reply (Except Setback α)) (start : Nanos)
    (made n : Nat) (run : Run σ α) : Prop where
  callTimes : run.trace.callTimes r.stage = (List.range' made (n + 1 - made)).map fun i =>
    min (r.pace script start i) (r.spentAt start)
  retries : run.trace.retries = (List.range' made (n - made)).map fun i =>
    (i + 1, min (r.policy.delay (i + 1))
      (r.spentAt start - (r.pace script start i + (script i).took)))
  result : run.result = resultAt script n (run.world.clock.now - start)
  now_eq : run.world.clock.now =
    min (r.pace script start n) (r.spentAt start) + (script n).took

theorem OnPace.endsAt (h : r.OnPace script start n w) (hu : r.Unhindered script) {x : Event}
    (hx : x.start? = none) (hnote : x.retry? = none) :
    r.EndsAt script start n n
      ⟨resultAt script n ((r.afterCall script n w).clock.now - start), r.afterCall script n w,
        r.opening w ++ [x]⟩ := by
  refine
    { callTimes := ?_
      retries := ?_
      result := rfl
      now_eq := (h.afterCall hu).2 }
  · rw [callTimes_attempt hx, takeTurn_of_unhindered hu, h.now_eq, Nat.add_sub_cancel_left]
    rfl
  · rw [retries_opening, Nat.sub_self, Trace.retries, List.filterMap_cons_none hnote]
    rfl

theorem OnPace.attempt_last (h : r.OnPace script start n w) (hu : r.Unhindered script)
    (hb : r.HoldsEnd start) (hlast : ¬ r.GoesOn script start n) :
    ∃ run, r.attempt script start n w = .done run ∧ r.EndsAt script start n n run := by
  have hraised : (r.takeTurn w).clock.raised = false := by
    rw [takeTurn_of_unhindered hu, h.unsignalled.1]
  rw [attempt_called h.unsignalled.1 hraised]
  rcases ha : (script n).answer with (cause | cause) | v
  · have hspent : r.spentAt start ≤ (r.afterCall script n w).clock.now := by
      refine Nat.le_of_not_lt fun hlt => hlast ⟨⟨cause, ha⟩, ?_⟩
      exact (h.unspent_iff hu).mp hlt
    have hs : start ≤ (r.afterCall script n w).clock.now :=
      Nat.le_trans (start_le_spentAt r start) hspent
    have hn : r.next start (n + 1) (r.afterCall script n w).clock.now = .giveUp := by
      rw [next_eq_giveUp_iff hb _ hs, budgetEnd_of_none hu.deadline]
      exact Int.ofNat_le.mpr hspent
    refine ⟨_, ?_, h.endsAt hu (x := .exhausted r.action (n + 1)
      ((r.afterCall script n w).clock.now - start) cause) rfl rfl⟩
    simp only [conclude, hn, resultAt, ha]
    rfl
  · refine ⟨_, ?_, h.endsAt hu (x := .refused r.action (n + 1) cause) rfl rfl⟩
    simp only [conclude, resultAt, ha]
    rfl
  · refine ⟨_, ?_, h.endsAt hu (x := .succeeded r.action (n + 1)
      ((r.afterCall script n w).clock.now - start)) rfl rfl⟩
    simp only [conclude, resultAt, ha]
    rfl

theorem OnPace.attempt_again (h : r.OnPace script start n w) (hu : r.Unhindered script)
    (hb : r.HoldsEnd start) (hon : r.GoesOn script start n) :
    ∃ x next, r.attempt script start n w = .again (r.opening w ++ [x]) next ∧
      r.OnPace script start (n + 1) next ∧ x.start? = none ∧
      x.retry? = some (n + 1, min (r.policy.delay (n + 1))
        (r.spentAt start - (r.pace script start n + (script n).took))) := by
  obtain ⟨⟨cause, ha⟩, hin⟩ := hon
  obtain ⟨hunsignalled, hnow⟩ := h.afterCall hu
  have hraised : (r.takeTurn w).clock.raised = false := by
    rw [takeTurn_of_unhindered hu, h.unsignalled.1]
  have hpace : (r.afterCall script n w).clock.now = r.pace script start n + (script n).took := by
    rw [hnow]
    lia
  have hs : start ≤ (r.afterCall script n w).clock.now := by
    rw [hpace]
    exact Nat.le_trans (start_le_pace n) (Nat.le_add_right _ _)
  have hn := next_of_unhindered hu hb hs (by rwa [hpace]) (n + 1)
  rw [hpace] at hn
  obtain ⟨hwait, hend⟩ := hunsignalled.wait
    (min (r.policy.delay (n + 1)) (r.spentAt start - (r.pace script start n + (script n).took)))
  refine ⟨.retrying r.action (n + 1) (r.pace script start n + (script n).took) _ cause,
    r.afterBackoff script n _ w, ?_, ⟨hwait, ?_⟩, rfl, rfl⟩
  · rw [attempt_called h.unsignalled.1 hraised, ha]
    simp only [conclude, hpace, hn]
    rfl
  · rw [afterBackoff_clock, hend, hpace, pace, ← Nat.add_min_add_left,
      Nat.add_sub_of_le (Nat.le_of_lt hin)]

/-! ## Runs -/

theorem EndsAt.after (h : r.EndsAt script start (made + 1) n run) (hle : made + 1 ≤ n)
    (hw : r.OnPace script start made w) (hu : r.Unhindered script) {x : Event}
    (hx : x.start? = none) (hretry : x.retry? = some (made + 1, min (r.policy.delay (made + 1))
      (r.spentAt start - (r.pace script start made + (script made).took)))) :
    r.EndsAt script start made n (run.after (r.opening w ++ [x])) := by
  have hcalls : n + 1 - made = (n + 1 - (made + 1)) + 1 := by lia
  have hretries : n - made = (n - (made + 1)) + 1 := by lia
  refine
    { callTimes := ?_
      retries := ?_
      result := h.result
      now_eq := h.now_eq }
  · rw [Run.trace_after, List.append_assoc, List.singleton_append, callTimes_attempt hx,
      h.callTimes, takeTurn_of_unhindered hu, hw.now_eq, hcalls, List.range'_succ, List.map_cons]
  · rw [Run.trace_after, List.append_assoc, List.singleton_append, retries_opening,
      Trace.retries, List.filterMap_cons_some hretry, hretries, List.range'_succ, List.map_cons,
      ← h.retries]
    rfl

/-- A loop on pace makes its calls up to the first one that does not go on. -/
theorem OnPace.loop_endsAt {fuel : Nat} (h : r.OnPace script start made w)
    (hu : r.Unhindered script) (hb : r.HoldsEnd start) (hle : made ≤ n) (hn : n < made + fuel)
    (hon : ∀ i, made ≤ i → i < n → r.GoesOn script start i) (hlast : ¬ r.GoesOn script start n) :
    ∃ run, r.loop script start fuel made w = some run ∧ r.EndsAt script start made n run := by
  induction fuel generalizing made w with
  | zero => exact absurd hn (Nat.not_lt.mpr hle)
  | succ fuel ih =>
      rcases Nat.eq_or_lt_of_le hle with rfl | hlt
      · obtain ⟨run, hrun, hend⟩ := h.attempt_last hu hb hlast
        exact ⟨run, by rw [loop, hrun], hend⟩
      · obtain ⟨x, next, hagain, hnext, hx, hretry⟩ :=
          h.attempt_again hu hb (hon made (Nat.le_refl made) hlt)
        obtain ⟨run, hrun, hend⟩ := ih hnext hlt (by lia)
          fun i hi hin => hon i (Nat.le_of_succ_le hi) hin
        refine ⟨run.after (r.opening w ++ [x]), ?_, hend.after hlt h hu hx hretry⟩
        rw [loop, hagain]
        simp only [hrun, Option.map_some]

theorem OnPace.loop_endless {fuel : Nat} (h : r.OnPace script start made w)
    (hu : r.Unhindered script) (hb : r.HoldsEnd start)
    (hon : ∀ i, made ≤ i → i < made + fuel → r.GoesOn script start i) :
    r.loop script start fuel made w = none := by
  induction fuel generalizing made w with
  | zero =>
      refine withdrawal?_eq_none_iff.mpr ⟨h.unsignalled.1, ?_⟩
      rw [takeTurn_of_unhindered hu, h.unsignalled.1]
  | succ fuel ih =>
      obtain ⟨x, next, hagain, hnext, -, -⟩ :=
        h.attempt_again hu hb (hon made (Nat.le_refl made) (by lia))
      have hrest := ih hnext fun i hi hin => hon i (Nat.le_of_succ_le hi) (by lia)
      rw [loop, hagain]
      simp only [hrest, Option.map_none]

/-- Call number `n`, from zero, is the last one of a run: the calls before it go on, and it does
not. -/
structure LastCallAt (r : Retrier σ) (script : Nat → Reply (Except Setback α)) (start : Nanos)
    (n : Nat) : Prop where
  goesOn : ∀ i < n, r.GoesOn script start i
  ends : ¬ r.GoesOn script start n

section runs

variable (hu : r.Unhindered script) (hw : w.clock.Unsignalled) (hb : r.HoldsEnd w.clock.now)

include hu hw hb

theorem run_endsAt (hn : n < maxAttempts) (hlast : r.LastCallAt script w.clock.now n) :
    ∃ run, r.run script w = some run ∧ r.EndsAt script w.clock.now 0 n run := by
  rw [run_eq_loop hb]
  exact (onPace_zero hw).loop_endsAt hu hb (Nat.zero_le n) (by rwa [Nat.zero_add])
    (fun i _ hi => hlast.goesOn i hi) hlast.ends

theorem run_endless (hon : ∀ i < maxAttempts, r.GoesOn script w.clock.now i) :
    r.run script w = none := by
  rw [run_eq_loop hb]
  exact (onPace_zero hw).loop_endless hu hb fun i _ hi => hon i (by rwa [Nat.zero_add] at hi)

/-- A run either has a last call, which its pace and the script tell, or goes on for longer than
calls are counted. -/
theorem run_cases :
    (∃ n run, n < maxAttempts ∧ r.LastCallAt script w.clock.now n ∧ r.run script w = some run ∧
        r.EndsAt script w.clock.now 0 n run) ∨
      (∀ i < maxAttempts, r.GoesOn script w.clock.now i) ∧ r.run script w = none := by
  classical
  by_cases hon : ∀ i < maxAttempts, r.GoesOn script w.clock.now i
  · exact .inr ⟨hon, run_endless hu hw hb hon⟩
  · have hstop : ∃ i, i < maxAttempts ∧ ¬ r.GoesOn script w.clock.now i := by
      by_contra hall
      exact hon fun i hi => by_contra fun hnot => hall ⟨i, hi, hnot⟩
    obtain ⟨hn, hnot⟩ := Nat.find_spec hstop
    have hlast : r.LastCallAt script w.clock.now (Nat.find hstop) := by
      refine ⟨fun i hi => ?_, hnot⟩
      by_contra hgo
      exact Nat.find_min hstop hi ⟨Nat.lt_trans hi hn, hgo⟩
    obtain ⟨run, hrun, hend⟩ := run_endsAt hu hw hb hn hlast
    exact .inl ⟨_, run, hn, hlast, hrun, hend⟩

end runs

theorem EndsAt.calls_eq (h : r.EndsAt script start 0 n run) :
    run.trace.calls r.stage = n + 1 := by
  rw [← Trace.length_callTimes, h.callTimes]
  simp

end Retrier

end Settle
