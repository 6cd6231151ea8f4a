import Mathlib.Data.List.TakeWhile
import Settle.Proofs.Registry.Calls
import Settle.Proofs.Retrier.Signal
import Settle.Supervisor

/-! # What a supervisor makes of time

A supervisor keeps the cancellations to come in order and carries each out once its time is
reached, as the registry's own calls would. A run goes by the clock that the supervisor keeps for
its signal, and the supervisor stands where that clock ends. -/

namespace Settle

/-! ## Runs whose signal is still to come -/

/-- A failed attempt is followed by a wait. -/
def Trace.Waits (trace : Trace) : Prop :=
  ∃ action n t delay cause, .retrying action n t delay cause ∈ trace

namespace Retrier

variable {σ α : Type} {r : Retrier σ} {script : Nat → Reply (Except Setback α)}
  {start : Nanos} {made : Nat} {w : World σ} {run : Run σ α}

theorem takeTurn_due (r : Retrier σ) (w : World σ) :
    (r.takeTurn w).clock.due = w.clock.due := by
  unfold takeTurn
  split
  · rfl
  · exact Clock.wait_due _ _

theorem afterCall_due : (r.afterCall script made w).clock.due = w.clock.due :=
  (Reply.finish_due _ _).trans (takeTurn_due r w)

theorem ahead_takeTurn (h : (r.takeTurn w).clock.raised = false) :
    (r.takeTurn w).clock.Ahead ∨ (r.takeTurn w).clock = w.clock := by
  unfold takeTurn at h ⊢
  split
  · exact .inr rfl
  · next hwait =>
      rw [if_neg hwait] at h
      exact .inl (Clock.ahead_wait h)

theorem ahead_afterCall (h : (r.afterCall script made w).clock.raised = false) :
    (r.afterCall script made w).clock.Ahead ∨ (r.afterCall script made w).clock = w.clock := by
  rcases Reply.ahead_finish h with hahead | hstill
  · exact .inl hahead
  · have hclock : (r.afterCall script made w).clock = (r.takeTurn w).clock := hstill
    rw [hclock] at h ⊢
    exact ahead_takeTurn h

theorem Course.due_eq (h : Course r script start made w run) :
    run.world.clock.due = w.clock.due := by
  induction h with
  | withdrawn => rfl
  | interrupted => exact takeTurn_due r _
  | succeeded | refused | exhausted => exact afterCall_due
  | retried _ _ _ _ _ ih => exact ih.trans ((Clock.wait_due _ _).trans afterCall_due)

/-- A run that ends without the signal has waited until before it is due, or not at all. -/
theorem Course.ahead (h : Course r script start made w run)
    (hend : run.world.clock.raised = false) :
    run.world.clock.Ahead ∨ (run.world.clock = w.clock ∧ ¬ run.trace.Waits) := by
  induction h with
  | withdrawn hw =>
      rw [withdrawn_world, hw] at hend
      cases hend
  | interrupted _ ht =>
      rw [Run.world_after, withdrawn_world, ht] at hend
      cases hend
  | succeeded | refused | exhausted =>
      refine (ahead_afterCall hend).imp_right fun hstill => ⟨hstill, ?_⟩
      simp [Trace.Waits, opening, booking]
  | @retried made w cause delay run _ _ _ _ rest ih =>
      have hnext := rest.unraised_start hend
      rcases ih hend with hahead | ⟨hstill, -⟩
      · exact .inl hahead
      · refine .inl ?_
        rw [Run.world_after, hstill]
        exact Clock.ahead_wait hnext

end Retrier

namespace Supervisor

variable {s s' : Supervisor} {x y : Signal} {c : Clock} {span t : Nanos}

/-! ## Cancellations to come -/

/-- Cancellations to come are in order, and none is overdue. -/
structure Orderly (s : Supervisor) : Prop where
  sorted : s.pending.Pairwise (·.1 ≤ ·.1)
  ahead : ∀ p ∈ s.pending, s.now ≤ p.1

/-- The signal will be raised by `t`. -/
def DueBy (s : Supervisor) (x : Signal) (t : Nanos) : Prop :=
  ∃ p ∈ s.pending, s.signal? p.2 = some x ∧ p.1 ≤ t

theorem mem_takeWhile_imp {l : List (Nanos × Target)} {p : Nanos × Target}
    (hp : p ∈ l.takeWhile (·.1 ≤ t)) : p.1 ≤ t := by
  simpa using List.mem_takeWhile_imp hp

theorem lt_of_mem_dropWhile {l : List (Nanos × Target)} (h : l.Pairwise (·.1 ≤ ·.1))
    {p : Nanos × Target} (hp : p ∈ l.dropWhile (·.1 ≤ t)) : t < p.1 := by
  induction l with
  | nil => simp at hp
  | cons q l ih =>
      obtain ⟨hq, hl⟩ := List.pairwise_cons.mp h
      by_cases hle : q.1 ≤ t
      · exact ih hl (by simpa [List.dropWhile_cons, hle] using hp)
      · simp only [List.dropWhile_cons, hle, decide_false, Bool.false_eq_true, if_false,
          List.mem_cons] at hp
        have hlt := Nat.lt_of_not_le hle
        rcases hp with rfl | hp
        · exact hlt
        · exact Nat.lt_of_lt_of_le hlt (hq p hp)

theorem mem_takeWhile_iff {l : List (Nanos × Target)} (h : l.Pairwise (·.1 ≤ ·.1))
    {p : Nanos × Target} : p ∈ l.takeWhile (·.1 ≤ t) ↔ p ∈ l ∧ p.1 ≤ t := by
  refine ⟨fun hp => ⟨(List.takeWhile_sublist _).subset hp, mem_takeWhile_imp hp⟩, ?_⟩
  rintro ⟨hp, hle⟩
  have hsplit := List.takeWhile_append_dropWhile
    (p := fun q : Nanos × Target => decide (q.1 ≤ t)) (l := l)
  rw [← hsplit, List.mem_append] at hp
  refine hp.resolve_right fun hlate => ?_
  exact absurd hle (Nat.not_le.mpr (lt_of_mem_dropWhile h hlate))

/-- The first of the cancellations that are aimed at a signal is the one it waits for. -/
theorem Orderly.dueBy_iff (h : s.Orderly) :
    s.DueBy x t ↔ ∃ u, s.due? x = some u ∧ u ≤ t := by
  have hsorted := h.sorted
  unfold DueBy due?
  generalize s.pending = l at hsorted
  induction l with
  | nil => simp
  | cons p l ih =>
      obtain ⟨hp, hl⟩ := List.pairwise_cons.mp hsorted
      by_cases haim : s.signal? p.2 = some x
      · have hfirst (q : Nanos × Target) (hq : q ∈ l) (hle : q.1 ≤ t) : p.1 ≤ t :=
          Nat.le_trans (hp q hq) hle
        simp only [List.mem_cons, exists_eq_or_imp, haim, true_and, List.find?_cons, decide_true,
          Option.map_some, Option.some.injEq, exists_eq_left', or_iff_left_iff_imp]
        rintro ⟨q, hq, -, hle⟩
        exact hfirst q hq hle
      · simpa [List.find?_cons, haim] using ih hl

theorem Orderly.clock_signal? (h : s.Orderly) (hdue : s.DueBy x t) :
    ∃ u, (s.clock x).signal? = some u ∧ u ≤ t := by
  obtain ⟨u, hu, hut⟩ := h.dueBy_iff.mp hdue
  obtain ⟨p, hp, -, hle⟩ := hdue
  have hclock : (s.clock x).due = some u := hu
  exact ⟨max s.now u, by rw [Clock.signal?, hclock]; rfl,
    Nat.max_le.mpr ⟨Nat.le_trans (h.ahead p hp) hle, hut⟩⟩

theorem Orderly.schedule (h : s.Orderly) (span : Nanos) (target : Target) :
    (s.schedule span target).Orderly := by
  have hnow : s.now ≤ s.now + span := Nat.le_add_right _ _
  have htake := List.takeWhile_sublist (l := s.pending) fun p => decide (p.1 ≤ s.now + span)
  have hdrop := List.dropWhile_sublist (l := s.pending) fun p => decide (p.1 ≤ s.now + span)
  refine ⟨List.pairwise_append.mpr ⟨h.sorted.sublist htake, ?_, ?_⟩, ?_⟩
  · refine List.pairwise_cons.mpr ⟨fun p hp => ?_, h.sorted.sublist hdrop⟩
    exact Nat.le_of_lt (lt_of_mem_dropWhile h.sorted hp)
  · intro p hp q hq
    have hle := mem_takeWhile_imp hp
    rcases List.mem_cons.mp hq with rfl | hq
    · exact hle
    · exact Nat.le_trans hle (Nat.le_of_lt (lt_of_mem_dropWhile h.sorted hq))
  · intro p hp
    rcases List.mem_append.mp hp with hp | hp
    · exact h.ahead p (htake.subset hp)
    · rcases List.mem_cons.mp hp with rfl | hp
      · exact hnow
      · exact h.ahead p (hdrop.subset hp)

theorem dueBy_schedule {target : Target} (hx : s.signal? target = some x) :
    (s.schedule span target).DueBy x (s.now + span) :=
  ⟨(s.now + span, target), by simp [schedule], hx, Nat.le_refl _⟩

/-! ## Cancellations whose time has come -/

theorem isRaised_foldl {l : List (Nanos × Target)} (f : Target → Option Signal) (r : Registry) :
    (l.foldl (fun r p => match f p.2 with | some z => r.raise z | none => r) r).isRaised x =
      true ↔ r.isRaised x = true ∨ ∃ p ∈ l, f p.2 = some x := by
  induction l generalizing r with
  | nil => simp
  | cons p l ih =>
      rw [List.foldl_cons, ih]
      cases hp : f p.2 with
      | none => simp [hp]
      | some z =>
          simp only [Registry.isRaised_iff, Registry.raise, List.mem_cons, hp, exists_eq_or_imp,
            Option.some.injEq, eq_comm (a := x)]
          tauto

theorem operations_foldl (f : Target → Option Signal) (l : List (Nanos × Target))
    (r : Registry) :
    (l.foldl (fun r p => match f p.2 with | some z => r.raise z | none => r) r).operations =
      r.operations := by
  induction l generalizing r with
  | nil => rfl
  | cons p l ih =>
      rw [List.foldl_cons, ih]
      cases f p.2 <;> rfl

theorem isRaised_settle (h : s.pending.Pairwise (·.1 ≤ ·.1)) :
    s.settle.registry.isRaised x = true ↔ s.registry.isRaised x = true ∨ s.DueBy x s.now := by
  refine (isRaised_foldl s.signal? s.registry).trans (or_congr_right ?_)
  simp only [mem_takeWhile_iff h, DueBy, and_assoc, and_comm (a := s.signal? _ = some x)]

theorem settle_signal? (s : Supervisor) : s.settle.signal? = s.signal? := by
  funext target
  cases target with
  | signal x => rfl
  | operation id => exact congrArg (List.lookup id) (operations_foldl s.signal? _ s.registry)

theorem due?_settle (hdue : ¬ s.DueBy x s.now) : s.settle.due? x = s.due? x := by
  have hcame : (s.pending.takeWhile (·.1 ≤ s.now)).find?
      (fun p => s.signal? p.2 = some x) = none := by
    refine List.find?_eq_none.mpr fun p hp haim => hdue ?_
    exact ⟨p, (List.takeWhile_sublist _).subset hp, of_decide_eq_true haim,
      mem_takeWhile_imp hp⟩
  have hrest : s.pending.find? (fun p => s.signal? p.2 = some x) =
      s.settle.pending.find? (fun p => s.signal? p.2 = some x) := by
    rw [← Option.none_or (o := s.settle.pending.find? _), ← hcame, ← List.find?_append]
    exact congrArg _ List.takeWhile_append_dropWhile.symm
  rw [due?, due?, settle_signal?, hrest]

theorem Orderly.settle (h : s.pending.Pairwise (·.1 ≤ ·.1)) : s.settle.Orderly where
  sorted := h.sublist (List.dropWhile_sublist _)
  ahead _ hp := Nat.le_of_lt (lt_of_mem_dropWhile h hp)

theorem callAll_requestCancel (operations : List (String × Signal)) (ids : List (Nanos × String))
    (r : Registry) (h : r.operations = operations) :
    r.callAll (ids.map fun p => .requestCancel p.2) = ids.foldl (fun r p =>
      match operations.lookup p.2 with
      | some x => r.raise x
      | none => r) r := by
  induction ids generalizing r with
  | nil => rfl
  | cons p ids ih =>
      rw [List.map_cons, Registry.callAll_cons, List.foldl_cons, Registry.call,
        Registry.requestCancel, h]
      cases operations.lookup p.2 with
      | none => exact ih r h
      | some x => exact ih (r.raise x) h

/-- Cancellations by id act as the calls on the registry that they stand for. -/
theorem settle_registry {ids : List (Nanos × String)}
    (h : s.pending = ids.map fun p => (p.1, .operation p.2)) :
    s.settle.registry = s.registry.callAll
      ((ids.takeWhile (·.1 ≤ s.now)).map fun p => .requestCancel p.2) := by
  rw [callAll_requestCancel s.registry.operations _ _ rfl, settle, h, List.takeWhile_map,
    List.foldl_map]
  rfl

/-! ## Waiting and running -/

/-- The supervisor has come to where the clock for a signal is. -/
structure StandsAt (s : Supervisor) (x : Signal) (c : Clock) : Prop where
  now : s.now = c.now
  raised : s.registry.isRaised x = c.raised
  due : c.raised = false → s.due? x = c.due

theorem isRaised_advance (h : s.Orderly) (hspan : span ≠ 0) :
    (s.advance span).registry.isRaised x = true ↔
      s.registry.isRaised x = true ∨ s.DueBy x (s.now + span) := by
  rw [advance, if_neg hspan]
  exact isRaised_settle h.sorted

theorem Orderly.advance (h : s.Orderly) (span : Nanos) : (s.advance span).Orderly := by
  unfold Supervisor.advance
  split
  · exact h
  · exact .settle h.sorted

theorem Orderly.follow (h : s.Orderly) (x : Signal) (c : Clock) : (s.follow x c).Orderly := by
  unfold Supervisor.follow
  have hsettle : ({ s with now := c.now } : Supervisor).settle.Orderly := .settle h.sorted
  split
  · exact ⟨hsettle.sorted, hsettle.ahead⟩
  · exact hsettle

theorem isRaised_follow (h : s.Orderly) : (s.follow x c).registry.isRaised y = true ↔
    s.registry.isRaised y = true ∨ s.DueBy y c.now ∨ (y = x ∧ c.raised = true) := by
  have hsettle : ({ s with now := c.now } : Supervisor).settle.registry.isRaised y = true ↔
      s.registry.isRaised y = true ∨ s.DueBy y c.now := isRaised_settle h.sorted
  unfold follow
  cases hc : c.raised with
  | false => simpa using hsettle
  | true =>
      simp only [if_true, Registry.isRaised_iff, Registry.raise, List.mem_cons, and_true]
      rw [← Registry.isRaised_iff, hsettle, Registry.isRaised_iff]
      tauto

theorem standsAt_clock (s : Supervisor) (x : Signal) : s.StandsAt x (s.clock x) :=
  ⟨rfl, rfl, fun _ => rfl⟩

theorem standsAt_follow (h : s.Orderly) (hdue : c.due = s.due? x)
    (hquiet : c.raised = false → s.registry.isRaised x = false ∧ c.Ahead) :
    (s.follow x c).StandsAt x c := by
  have hnow : (s.follow x c).now = c.now := by
    unfold follow
    split <;> rfl
  cases hc : c.raised with
  | true =>
      refine ⟨hnow, ?_, by simp [hc]⟩
      rw [hc, isRaised_follow h]
      exact .inr (.inr ⟨rfl, hc⟩)
  | false =>
      obtain ⟨hraised, hahead⟩ := hquiet hc
      have hlater : ¬ s.DueBy x c.now := by
        rw [h.dueBy_iff]
        rintro ⟨u, hu, hle⟩
        exact absurd (hahead u (hdue.trans hu)) (Nat.not_lt.mpr hle)
      refine ⟨hnow, ?_, fun _ => ?_⟩
      · rw [hc, Bool.eq_false_iff, ne_eq, isRaised_follow h]
        simp [hraised, hlater, hc]
      · have hsettle : ({ s with now := c.now } : Supervisor).settle.due? x = s.due? x :=
          due?_settle hlater
        rw [hdue, ← hsettle, follow, hc]
        rfl

/-- A sleep goes by the clock for its signal. -/
theorem sleep_standsAt (h : s.Orderly) (x : Signal) (span : Nanos) :
    (s.sleep x span).1 = ((s.clock x).wait span).raised ∧
      (s.sleep x span).2.StandsAt x ((s.clock x).wait span) := by
  unfold sleep
  cases hx : s.registry.isRaised x with
  | true =>
      have hraised : (s.clock x).raised = true := hx
      rw [Clock.wait_of_raised hraised]
      exact ⟨hraised.symm, standsAt_clock s x⟩
  | false =>
      refine ⟨rfl, standsAt_follow h (Clock.wait_due _ _) fun hc => ?_⟩
      exact ⟨hx, Clock.ahead_wait hc⟩

variable {α : Type} {ctx : Context} {policy : Policy}
  {script : Nat → Reply (Except Setback α)} {run : Run Unit α}

theorem run_cases (hrun : s.run ctx policy script = some (run, s')) :
    (Retrier.ungated policy ctx.deadline).Course script s.now 0 ⟨s.clock ctx.signal, ()⟩ run ∧
      ((run.trace.Waits ∨ run.world.clock.now ≠ s.now) ∧
          s' = s.follow ctx.signal run.world.clock ∨
        run.world.clock.now = s.now ∧
          s' = if run.world.clock.raised then { s with registry := s.registry.raise ctx.signal }
            else s) := by
  obtain ⟨found, hfound, hpair⟩ := Option.map_eq_some_iff.mp hrun
  obtain ⟨rfl, hs⟩ := Prod.mk.inj hpair
  refine ⟨(Retrier.run_course hfound).2, ?_⟩
  split at hs
  · next hmoved =>
      refine .inl ⟨?_, hs.symm⟩
      simp only [Bool.or_eq_true, List.any_eq_true, bne_iff_ne] at hmoved
      refine hmoved.imp_left ?_
      rintro ⟨e, he, hretry⟩
      cases e with
      | retrying => exact ⟨_, _, _, _, _, he⟩
      | _ => cases hretry
  · next hstill =>
      refine .inr ⟨?_, hs.symm⟩
      simp_all

/-- A run goes by the clock for its signal. -/
theorem run_standsAt (h : s.Orderly) (hrun : s.run ctx policy script = some (run, s')) :
    s'.StandsAt ctx.signal run.world.clock := by
  obtain ⟨hcourse, hnext⟩ := run_cases hrun
  rcases hnext with ⟨hmoved, rfl⟩ | ⟨hnow, rfl⟩
  · refine standsAt_follow h hcourse.due_eq fun hend => ⟨hcourse.unraised_start hend, ?_⟩
    refine (hcourse.ahead hend).resolve_right ?_
    rintro ⟨hstill, hwaits⟩
    exact hmoved.elim hwaits (· (congrArg Clock.now hstill))
  · cases hend : run.world.clock.raised with
    | true =>
        refine ⟨hnow.symm, ?_, by simp [hend]⟩
        simp [hend, Registry.isRaised, Registry.raise]
    | false =>
        refine ⟨hnow.symm, ?_, fun _ => hcourse.due_eq.symm⟩
        rw [hend]
        exact hcourse.unraised_start hend

theorem orderly_run (h : s.Orderly) (hrun : s.run ctx policy script = some (run, s')) :
    s'.Orderly := by
  obtain ⟨-, ⟨-, rfl⟩ | ⟨-, rfl⟩⟩ := run_cases hrun
  · exact h.follow _ _
  · split
    · exact ⟨h.sorted, h.ahead⟩
    · exact h

/-- A run begins nothing after its signal is due. -/
theorem run_begunBy (h : s.Orderly) (hrun : s.run ctx policy script = some (run, s'))
    (hdue : s.DueBy ctx.signal t) : run.trace.BegunBy t := by
  have hcourse := (run_cases hrun).1
  obtain ⟨u, hu, hle⟩ := h.clock_signal? hdue
  obtain ⟨replies, ha⟩ :
      ∃ replies, (Retrier.ungated policy ctx.deadline).Answers script 0 replies :=
    ⟨fun _ n => some (script n).bare, .of_zero fun _ => rfl⟩
  cases hend : run.world.clock.raised with
  | false =>
      have hsignal := (hcourse.unraised ha hend).1.trans hu
      exact hcourse.begunBy.mono (Nat.le_trans (Clock.now_le_signal hsignal) hle)
  | true =>
      cases hx : (s.clock ctx.signal).raised with
      | true =>
          rw [hcourse.of_raised hx]
          exact Trace.Quiet.begunBy (by simp [Event.start?]) t
      | false =>
          obtain ⟨v, -, hmet⟩ := hcourse.met ha hx hend
          exact hmet.begunBy.mono (Nat.le_trans (hmet.signal.le_due u hu) hle)

/-- The run of an operation begins nothing after the time at which the operation is to be
cancelled. -/
theorem run_begunBy_schedule {id : String} (h : s.Orderly)
    (hid : s.registry.operations.lookup id = some ctx.signal)
    (hrun : (s.schedule span (.operation id)).run ctx policy script = some (run, s')) :
    run.trace.BegunBy (s.now + span) :=
  run_begunBy (h.schedule span _) hrun (dueBy_schedule hid)

/-! ## Supervisors in use -/

theorem orderly_sleep (h : s.Orderly) (x : Signal) (span : Nanos) :
    (s.sleep x span).2.Orderly := by
  unfold sleep
  split
  · exact h
  · exact h.follow x _

/-- What a new supervisor can come to. -/
inductive Reachable : Supervisor → Prop where
  | new : Reachable {}
  | registry {earlier : Supervisor} (h : Reachable earlier) (r : Registry) :
      Reachable { earlier with registry := r }
  | schedule {earlier : Supervisor} (h : Reachable earlier) (after : Nanos) (target : Target) :
      Reachable (earlier.schedule after target)
  | advance {earlier : Supervisor} (h : Reachable earlier) (time : Nanos) :
      Reachable (earlier.advance time)
  | sleep {earlier : Supervisor} (h : Reachable earlier) (signal : Signal) (time : Nanos) :
      Reachable (earlier.sleep signal time).2
  | run {earlier later : Supervisor} {β : Type} {caller : Context} {rules : Policy}
      {replies : Nat → Reply (Except Setback β)} {ended : Run Unit β} (h : Reachable earlier)
      (hrun : earlier.run caller rules replies = some (ended, later)) : Reachable later

theorem Reachable.orderly (h : Reachable s) : s.Orderly := by
  induction h with
  | new => exact ⟨.nil, nofun⟩
  | registry _ r ih => exact ⟨ih.sorted, ih.ahead⟩
  | schedule _ after target ih => exact ih.schedule after target
  | advance _ time ih => exact ih.advance time
  | sleep _ signal time ih => exact orderly_sleep ih signal time
  | run _ hrun ih => exact orderly_run ih hrun

end Supervisor

end Settle
