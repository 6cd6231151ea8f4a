import Settle.Proofs.Retrier.Events
import Settle.Proofs.Retrier.Pace

/-! # Larger budgets

A larger budget does not change the pace of a run that nothing holds up, only where the run is cut
off. So it does no worse, unless it ends past the last point in time and the year that stands in
for it is too short. -/

namespace Settle

/-- The result of a run without the time that it took. -/
def Run.settlement {σ α : Type} (run : Run σ α) : Except (Reason × Nat) α :=
  run.result.mapError fun f => (f.reason, f.attempts)

namespace Retrier

variable {σ α : Type} {r r' : Retrier σ} {script : Nat → Reply (Except Setback α)}
  {start : Nanos} {n : Nat} {w : World σ} {run : Run σ α}

/-! ## Calls of runs that may not end -/

/-- The calls that a run makes: as many as are counted if it does not end, and none if the end of
its budget cannot be held. -/
def callCount (r : Retrier σ) (script : Nat → Reply (Except Setback α)) (w : World σ) : Nat :=
  (r.events script w).calls r.stage

theorem callCount_of_run (h : r.run script w = some run) :
    r.callCount script w = run.trace.calls r.stage := by
  rw [callCount, events_of_run h]

theorem callCount_of_endless (hb : r.HoldsEnd w.clock.now) (h : r.run script w = none) :
    r.callCount script w = maxAttempts := calls_events hb h

theorem callCount_of_not_holdsEnd (hb : ¬ r.HoldsEnd w.clock.now) : r.callCount script w = 0 := by
  rw [callCount, events_of_not_holdsEnd hb, Trace.calls_nil]

section counts

variable (hu : r.Unhindered script) (hw : w.clock.Unsignalled) (hb : r.HoldsEnd w.clock.now)

include hu hw hb

theorem callCount_le (hn : n < maxAttempts) (hends : ¬ r.GoesOn script w.clock.now n) :
    r.callCount script w ≤ n + 1 := by
  rcases run_cases hu hw hb with ⟨last, run, -, hlast, hrun, hend⟩ | ⟨hon, -⟩
  · rw [callCount_of_run hrun, hend.calls_eq]
    exact Nat.succ_le_succ (Nat.le_of_not_lt fun hlt => hends (hlast.goesOn n hlt))
  · exact absurd (hon n hn) hends

theorem lt_callCount (hn : n < maxAttempts) (hon : ∀ i < n, r.GoesOn script w.clock.now i) :
    n < r.callCount script w := by
  rcases run_cases hu hw hb with ⟨last, run, -, hlast, hrun, hend⟩ | ⟨-, hrun⟩
  · rw [callCount_of_run hrun, hend.calls_eq]
    exact Nat.lt_succ_of_le (Nat.le_of_not_lt fun hlt => hlast.ends (hon last hlt))
  · rwa [callCount_of_endless hb hrun]

end counts

/-! ## Runs that are cut off later -/

/-- A run under `r'` does no worse than one under `r`: it makes as many calls or more, and if that
one ends before its time is out, it ends with the same value or for the same reason, after as many
calls. -/
structure NoWorse (r r' : Retrier σ) (script : Nat → Reply (Except Setback α)) (w : World σ) :
    Prop where
  calls_le : r.callCount script w ≤ r'.callCount script w
  settled : ∀ run, r.run script w = some run →
    (∀ cause, run.verdict ≠ .error (.timedOut cause)) → ∃ run', r'.run script w = some run' ∧
      run'.settlement = run.settlement ∧
      run'.trace.calls r'.stage = run.trace.calls r.stage

theorem pace_congr (h : ∀ n, r'.policy.delay n = r.policy.delay n) (n : Nat) :
    r'.pace script start n = r.pace script start n := by
  induction n with
  | zero => rfl
  | succ n ih => rw [pace, pace, ih, h]

theorem GoesOn.mono (h : r.GoesOn script start n)
    (hdelay : ∀ n, r'.policy.delay n = r.policy.delay n)
    (hspent : r.spentAt start ≤ r'.spentAt start) : r'.GoesOn script start n := by
  refine ⟨h.asks, ?_⟩
  rw [pace_congr hdelay]
  exact Nat.lt_of_lt_of_le h.inTime hspent

theorem EndsAt.settlement_eq (h : r.EndsAt script start 0 n run) :
    run.settlement = (script n).answer.mapError fun s => (s.reason, n + 1) := by
  rw [Run.settlement, h.result, resultAt]
  cases (script n).answer <;> rfl

theorem EndsAt.not_asks (h : r.EndsAt script start 0 n run)
    (hv : ∀ cause, run.verdict ≠ .error (.timedOut cause)) : ¬ AsksAgain script n := by
  rintro ⟨cause, ha⟩
  refine hv cause ?_
  rw [Run.verdict, h.result, resultAt, ha]
  rfl

/-- Of two runs at one pace, the one that is cut off later does no worse. -/
theorem noWorse_of_spentAt_le (hu : r.Unhindered script) (hu' : r'.Unhindered script)
    (hw : w.clock.Unsignalled) (hb : r.HoldsEnd w.clock.now) (hb' : r'.HoldsEnd w.clock.now)
    (hdelay : ∀ n, r'.policy.delay n = r.policy.delay n)
    (hspent : r.spentAt w.clock.now ≤ r'.spentAt w.clock.now) : NoWorse r r' script w := by
  -- What goes on under `r` goes on under `r'`, so the runs can only part at the last call.
  rcases run_cases hu hw hb with ⟨n, run, hn, hlast, hrun, hend⟩ | ⟨hon, hrun⟩
  · have hon : ∀ i < n, r'.GoesOn script w.clock.now i :=
      fun i hi => (hlast.goesOn i hi).mono hdelay hspent
    refine ⟨?_, fun ended hended hv => ?_⟩
    · rw [callCount_of_run hrun, hend.calls_eq]
      exact lt_callCount hu' hw hb' hn hon
    · obtain rfl : run = ended := Option.some.inj (hrun.symm.trans hended)
      have hlast' : r'.LastCallAt script w.clock.now n :=
        ⟨hon, fun hgo => hend.not_asks hv hgo.asks⟩
      obtain ⟨run', hrun', hend'⟩ := run_endsAt hu' hw hb' hn hlast'
      refine ⟨run', hrun', ?_, ?_⟩
      · rw [hend.settlement_eq, hend'.settlement_eq]
      · rw [hend.calls_eq, hend'.calls_eq]
  · have hrun' : r'.run script w = none :=
      run_endless hu' hw hb' fun i hi => (hon i hi).mono hdelay hspent
    refine ⟨?_, fun ended hended => ?_⟩
    · rw [callCount_of_endless hb hrun, callCount_of_endless hb' hrun']
    · rw [hrun] at hended
      cases hended

/-! ## Two budgets of one policy -/

/-- The larger budget ends past the last point in time while the smaller one does not, and the
year that stands in for the larger one is shorter than the smaller one, or ends past the last
point in time as well. -/
structure Overreaches (start less more : Nanos) : Prop where
  held : ((start + less : Nanos) : Instant) ≤ Instant.latest
  past : Instant.latest < ((start + more : Nanos) : Instant)
  year : .year < less ∨ Instant.latest < ((start + .year : Nanos) : Instant)

section budgets

variable {p : Policy} {less more : Nanos} {script : Nat → Reply (Except Setback α)}
  {w : World Unit}

theorem ungated_unhindered (hj : p.jitter = false) (hi : ∀ n, (script n).interrupts = false)
    (budget : Nanos) : (ungated (p.withBudget budget) none).Unhindered script where
  deadline := rfl
  jitter := hj
  turns _ _ := rfl
  calls := hi

/-- Unless the larger budget overreaches itself, it ends no earlier than the smaller one. -/
theorem spentAt_mono (hle : less ≤ more) (hfits : ¬ Overreaches start less more) :
    (ungated (p.withBudget less) none).spentAt start ≤
      (ungated (p.withBudget more) none).spentAt start := by
  have hmore_held (h : ((start + more : Nanos) : Instant) ≤ Instant.latest) :
      (ungated (p.withBudget more) none).spentAt start = start + more := spentAt_of_held h
  have hless_held (h : ((start + less : Nanos) : Instant) ≤ Instant.latest) :
      (ungated (p.withBudget less) none).spentAt start = start + less := spentAt_of_held h
  by_cases hmore : ((start + more : Nanos) : Instant) ≤ Instant.latest
  · have hless : ((start + less : Nanos) : Instant) ≤ Instant.latest := by lia
    rw [hmore_held hmore, hless_held hless]
    exact Nat.add_le_add_left hle start
  · have hpast : Instant.latest < ((start + more : Nanos) : Instant) := Int.not_le.mp hmore
    have hyear : (ungated (p.withBudget more) none).spentAt start = start + .year :=
      spentAt_of_past hpast
    by_cases hless : ((start + less : Nanos) : Instant) ≤ Instant.latest
    · have hshort : less ≤ .year :=
        Nat.le_of_not_lt fun hlt => hfits ⟨hless, hpast, .inl hlt⟩
      rw [hyear, hless_held hless]
      exact Nat.add_le_add_left hshort start
    · have hyear' : (ungated (p.withBudget less) none).spentAt start = start + .year :=
        spentAt_of_past (Int.not_le.mp hless)
      rw [hyear, hyear']

theorem not_holdsEnd_of_more (hfits : ¬ Overreaches start less more)
    (hb : ¬ (ungated (p.withBudget more) none).HoldsEnd start) :
    ¬ (ungated (p.withBudget less) none).HoldsEnd start := by
  have hpast : Instant.latest < ((start + min more .year : Nanos) : Instant) := Int.not_le.mp hb
  intro hless
  have hheld : ((start + min less .year : Nanos) : Instant) ≤ Instant.latest := hless
  refine hfits ⟨?_, ?_, .inr ?_⟩
  · lia
  · lia
  · lia

/-- A first call that takes a year is followed by others under the smaller budget, but not under
one that overreaches itself. -/
theorem callCount_lt_of_overreaches (hj : p.jitter = false) (hw : w.clock.Unsignalled)
    (hover : Overreaches w.clock.now less more) :
    (ungated (p.withBudget more) none).callCount (neverReady (α := α) .year) w <
      (ungated (p.withBudget less) none).callCount (neverReady (α := α) .year) w := by
  obtain ⟨hheld, hpast, hyear⟩ := hover
  have hu (budget : Nanos) : (ungated (p.withBudget budget) none).Unhindered
      (neverReady (α := α) .year) := ungated_unhindered hj (fun _ => rfl) budget
  have hless : (ungated (p.withBudget less) none).HoldsEnd w.clock.now := holdsEnd_of_held hheld
  by_cases hend : ((w.clock.now + .year : Nanos) : Instant) ≤ Instant.latest
  · have hlonger : .year < less := hyear.resolve_right (Int.not_lt.mpr hend)
    have hmore : (ungated (p.withBudget more) none).HoldsEnd w.clock.now := by
      change ((w.clock.now + min more .year : Nanos) : Instant) ≤ Instant.latest
      lia
    have hspent : (ungated (p.withBudget more) none).spentAt w.clock.now =
        w.clock.now + .year := spentAt_of_past hpast
    have hspent' : (ungated (p.withBudget less) none).spentAt w.clock.now =
        w.clock.now + less := spentAt_of_held hheld
    have hends : ¬ (ungated (p.withBudget more) none).GoesOn (neverReady (α := α) .year)
        w.clock.now 0 := by
      rintro ⟨-, hin⟩
      rw [hspent] at hin
      exact Nat.lt_irrefl _ hin
    have hon : (ungated (p.withBudget less) none).GoesOn (neverReady (α := α) .year)
        w.clock.now 0 := by
      refine ⟨⟨_, rfl⟩, ?_⟩
      rw [hspent']
      exact Nat.add_lt_add_left hlonger w.clock.now
    calc (ungated (p.withBudget more) none).callCount (neverReady (α := α) .year) w
        ≤ 0 + 1 := callCount_le (hu more) hw hmore (by decide) hends
      _ < (ungated (p.withBudget less) none).callCount (neverReady (α := α) .year) w := by
          refine lt_callCount (hu less) hw hless (by decide) fun i hi => ?_
          obtain rfl := Nat.lt_one_iff.mp hi
          exact hon
  · have hmore : ¬ (ungated (p.withBudget more) none).HoldsEnd w.clock.now := by
      change ¬ ((w.clock.now + min more .year : Nanos) : Instant) ≤ Instant.latest
      lia
    rw [callCount_of_not_holdsEnd hmore]
    exact lt_callCount (hu less) hw hless (by decide) nofun

/-- Of two budgets for runs without a gate, a deadline or a signal, the larger one never does
worse, unless it overreaches itself. -/
theorem run_largerBudget (p : Policy) (w : World Unit) (hj : p.jitter = false)
    (hw : w.clock.Unsignalled) (hle : less ≤ more) :
    (∀ script : Nat → Reply (Except Setback α), (∀ n, (script n).interrupts = false) →
        NoWorse (ungated (p.withBudget less) none) (ungated (p.withBudget more) none) script w) ↔
      ¬ Overreaches w.clock.now less more := by
  refine ⟨fun hall hover => ?_, fun hfits script hi => ?_⟩
  · have hworse := callCount_lt_of_overreaches (α := α) hj hw hover
    exact Nat.not_le.mpr hworse (hall _ fun _ => rfl).calls_le
  · have hu := ungated_unhindered hj hi
    by_cases hb : (ungated (p.withBudget more) none).HoldsEnd w.clock.now
    · have hless : (ungated (p.withBudget less) none).HoldsEnd w.clock.now := by
        have hheld : ((w.clock.now + min more .year : Nanos) : Instant) ≤ Instant.latest := hb
        change ((w.clock.now + min less .year : Nanos) : Instant) ≤ Instant.latest
        lia
      exact noWorse_of_spentAt_le (hu less) (hu more) hw hless hb (fun _ => rfl)
        (spentAt_mono hle hfits)
    · have hless := not_holdsEnd_of_more hfits hb
      refine ⟨?_, fun run hrun => ?_⟩
      · rw [callCount_of_not_holdsEnd hless]
        exact Nat.zero_le _
      · rw [run_of_not_holdsEnd hless] at hrun
        cases hrun

end budgets

/-- A policy that waits for one second after every failure. -/
def everySecond : Policy := ⟨.seconds 30, .seconds 1, .seconds 1, 1, false⟩

theorem run_largerBudget_everySecond :
    everySecond.jitter = false ∧ Clock.Unsignalled {} ∧ Nanos.seconds 1 ≤ Nanos.longest ∧
      ¬ Overreaches 0 (.seconds 1) .longest ∧
      NoWorse (ungated (everySecond.withBudget (.seconds 1)) none)
        (ungated (everySecond.withBudget .longest) none) pendingThenMissing ⟨{}, ()⟩ := by
  have hw : Clock.Unsignalled {} := ⟨rfl, rfl⟩
  have hle : Nanos.seconds 1 ≤ Nanos.longest := by decide +kernel
  have hfits : ¬ Overreaches 0 (.seconds 1) .longest := by
    rintro ⟨-, -, hyear⟩
    revert hyear
    decide +kernel
  exact ⟨rfl, hw, hle, hfits, (run_largerBudget everySecond ⟨{}, ()⟩ rfl hw hle).mpr hfits _
    fun _ => rfl⟩

/-- A first call that takes a year and asks for another, which succeeds. -/
def yearThenReady (n : Nat) : Reply (Except Setback Unit) where
  answer := if n = 0 then .error (.retryable (.status "Creating" none)) else .ok ()
  took := if n = 0 then .year else 0

/-- Two years are enough for two calls that the longest of all budgets cuts short after one. -/
theorem longest_not_noWorse :
    everySecond.jitter = false ∧ Clock.Unsignalled {} ∧
      (∀ n, (yearThenReady n).interrupts = false) ∧ 2 * Nanos.year ≤ Nanos.longest ∧
      ((ungated (everySecond.withBudget (2 * .year)) none).run yearThenReady ⟨{}, ()⟩).map
        (fun run => (run.verdict, run.trace.calls .issue)) = some (.ok (), 2) ∧
      ((ungated (everySecond.withBudget .longest) none).run yearThenReady ⟨{}, ()⟩).map
        (fun run => (run.verdict, run.trace.calls .issue)) =
          some (.error (.timedOut (.status "Creating" none)), 1) ∧
      ¬ NoWorse (ungated (everySecond.withBudget (2 * .year)) none)
        (ungated (everySecond.withBudget .longest) none) yearThenReady ⟨{}, ()⟩ := by
  have hless : ((ungated (everySecond.withBudget (2 * .year)) none).run yearThenReady
      ⟨{}, ()⟩).map (fun run => (run.verdict, run.trace.calls .issue)) = some (.ok (), 2) := by
    decide +kernel
  have hmore : ((ungated (everySecond.withBudget .longest) none).run yearThenReady
      ⟨{}, ()⟩).map (fun run => (run.verdict, run.trace.calls .issue)) =
        some (.error (.timedOut (.status "Creating" none)), 1) := by
    decide +kernel
  refine ⟨rfl, ⟨rfl, rfl⟩, fun _ => rfl, by decide +kernel, hless, hmore, fun h => ?_⟩
  obtain ⟨run, hrun, hready⟩ := Option.map_eq_some_iff.mp hless
  obtain ⟨run', hrun', hcut⟩ := Option.map_eq_some_iff.mp hmore
  have htwo : run.trace.calls .issue = 2 := congrArg Prod.snd hready
  have hone : run'.trace.calls .issue = 1 := congrArg Prod.snd hcut
  have hcalls : run.trace.calls .issue ≤ run'.trace.calls .issue := by
    have hle := h.calls_le
    rwa [callCount_of_run hrun, callCount_of_run hrun'] at hle
  rw [htwo, hone] at hcalls
  exact absurd hcalls (by decide)

end Retrier

end Settle
