import Mathlib.Data.List.Chain
import Settle.Proofs.Retrier.Signal

/-! # What surrounds the calls of a run

The turn of a call is booked right before it, and what the loop makes of the answer is the next
event after it. So a trace shows which gate, which policy and which budget its calls go by, and
that turns and delays are waited out. -/

namespace Settle

variable {σ α : Type}

/-- An event may come right after another: a call when its booked turn has come, a booking when
the delay before it is over, and a delay after a call. -/
def Event.Follows : Event → Event → Prop
  | .called stage' now, .reserved stage _ time wait _ => stage' = stage ∧ now = time + wait
  | .reserved _ _ time _ _, .retrying _ _ now delay _ => time = now + delay
  | .retrying .., .called .. => True
  | .called .., _ | .retrying .., _ => False
  | _, _ => True

/-- Every event may come after the one before it. -/
def Trace.Paced (t : Trace) : Prop := t.IsChain fun last next => next.Follows last

/-- In a paced trace that starts with a note, every call has its own turn right before it. -/
theorem Trace.Paced.booked {t before after : Trace} {stage : Stage} {time : Nanos} (h : t.Paced)
    (hopened : ∃ action rest, t = .opened action :: rest)
    (htrace : t = before ++ .called stage time :: after) :
    ∃ earlier action booking wait announced,
      before = earlier ++ [.reserved stage action booking wait announced] := by
  subst htrace
  obtain ⟨-, -, hmeet⟩ := List.isChain_append.mp h
  cases hlast : before.getLast? with
  | none =>
      obtain ⟨action, rest, hstart⟩ := hopened
      rw [List.getLast?_eq_none_iff.mp hlast] at hstart
      cases hstart
  | some last =>
      have hfollows := hmeet last hlast _ rfl
      obtain ⟨earlier, rfl⟩ := List.getLast?_eq_some_iff.mp hlast
      cases last with
      | reserved s action booking wait announced =>
          obtain rfl : s = stage := hfollows.1.symm
          exact ⟨earlier, action, booking, wait, announced, rfl⟩
      | _ => cases hfollows

/-! ## Bookings at the gate -/

namespace Gate

/-- The gate answers the bookings of a trace in turn, which takes it from one state to another. -/
def Serves (g : Gate σ) : σ → Trace → σ → Prop
  | s, [], last => last = s
  | s, .reserved _ action time wait _ :: rest, last =>
    wait = (g.reserve action time s).1 ∧ g.Serves (g.reserve action time s).2 rest last
  | s, _ :: rest, last => g.Serves s rest last

variable {g : Gate σ} {s last : σ}

theorem serves_cons_of_unbooked {e : Event} {rest : Trace} (h : e.booked? = none) :
    g.Serves s (e :: rest) last ↔ g.Serves s rest last := by
  cases e with
  | reserved => cases h
  | _ => rfl

theorem serves_append {t u : Trace} :
    g.Serves s (t ++ u) last ↔ ∃ mid, g.Serves s t mid ∧ g.Serves mid u last := by
  induction t generalizing s with
  | nil => simp [Serves]
  | cons e t ih =>
      cases e with
      | reserved => simp only [List.cons_append, Serves, ih, and_assoc, exists_and_left]
      | _ => exact ih

theorem serves_of_unbooked {t : Trace} (h : ∀ e ∈ t, e.booked? = none) : g.Serves s t s := by
  induction t with
  | nil => rfl
  | cons e t ih =>
      rw [serves_cons_of_unbooked (h e (by simp))]
      exact ih fun x hx => h x (by simp [hx])

theorem Serves.embed {pre events post : Trace} (h : g.Serves s events last)
    (hpre : ∀ e ∈ pre, e.booked? = none) (hpost : ∀ e ∈ post, e.booked? = none) :
    g.Serves s (pre ++ events ++ post) last := by
  rw [List.append_assoc]
  refine serves_append.mpr ⟨s, serves_of_unbooked hpre, ?_⟩
  exact serves_append.mpr ⟨last, h, serves_of_unbooked hpost⟩

end Gate

namespace Retrier

variable {r : Retrier σ} {script : Nat → Reply (Except Setback α)} {start : Nanos}
  {made : Nat} {w : World σ} {run : Run σ α} {readings : Replies (Except Setback Unit)}

theorem serves_opening (r : Retrier σ) (w : World σ) {rest : Trace} {last : σ} :
    r.gate.Serves w.gate (r.opening w ++ rest) last ↔
      r.gate.Serves (r.takeTurn w).gate rest last := by
  simp [opening, booking, Gate.Serves, turnWait, takeTurn]

theorem Course.serves (h : Course r script start made w run) :
    r.gate.Serves w.gate run.trace run.world.gate := by
  induction h with
  | withdrawn => rfl
  | interrupted => exact ⟨rfl, rfl⟩
  | succeeded | refused | exhausted => exact (serves_opening r _).mpr rfl
  | retried _ _ _ _ _ ih =>
      rw [Run.trace_after, List.append_assoc, serves_opening]
      exact ih

/-! ## Decisions after calls -/

/-- What the loop notes after call number `attempt`, counted from one, was answered at `now`. -/
def sequel (r : Retrier σ) (start : Nanos) (attempt : Nat) (now : Nanos) :
    Except Setback Unit → Event
  | .ok () => .succeeded r.action attempt (now - start)
  | .error (.fatal cause) => .refused r.action attempt cause
  | .error (.retryable cause) =>
    match r.next start attempt now with
    | .giveUp => .exhausted r.action attempt (now - start) cause
    | .retryAfter delay => .retrying r.action attempt now delay cause

theorem start?_sequel (r : Retrier σ) (start : Nanos) (attempt : Nat) (now : Nanos)
    (answer : Except Setback Unit) : (r.sequel start attempt now answer).start? = none := by
  rcases answer with (cause | cause) | v
  · simp only [sequel]
    split <;> rfl
  · rfl
  · rfl

/-- The first call of an attempt and the events after it goes by its answer; any other call is
made later. -/
theorem split_sequel {rest before after : Trace} {t : Nanos}
    (h : r.opening w ++ r.sequel start (made + 1) (r.afterCall script made w).clock.now
      (script made).bare.answer :: rest = before ++ .called r.stage t :: after) :
    (before = [r.booking w] ∧ after = r.sequel start (made + 1) (t + (script made).took)
        (script made).bare.answer :: rest) ∨
      ∃ x mid, x.start? = none ∧ before = r.opening w ++ x :: mid ∧
        rest = mid ++ .called r.stage t :: after := by
  have hquiet := start?_sequel r start (made + 1) (r.afterCall script made w).clock.now
    (script made).bare.answer
  rcases split_call hquiet h with ⟨hb, rfl, ha⟩ | ⟨mid, hb, hrest⟩
  · rw [afterCall_now] at ha
    exact .inl ⟨hb, ha⟩
  · exact .inr ⟨_, mid, hquiet, hb, hrest⟩

theorem booked_booking (r : Retrier σ) (w : World σ) : ∃ earlier time wait announced,
    [r.booking w] = earlier ++ [.reserved r.stage r.action time wait announced] :=
  ⟨[], _, _, _, rfl⟩

/-- A call that stands in a trace is booked right before it, and right after it stands what its
answer decides; it is number `made` or a later one. -/
structure Decided (r : Retrier σ) (script : Nat → Reply (Except Setback α)) (start : Nanos)
    (made : Nat) (before : Trace) (t : Nanos) (after : Trace) : Prop where
  booked : ∃ earlier time wait announced,
    before = earlier ++ [.reserved r.stage r.action time wait announced]
  decided : ∃ n rest, n = made + before.calls r.stage ∧
    after = r.sequel start (n + 1) (t + (script n).took) (script n).bare.answer :: rest

theorem decided_first (r : Retrier σ) (script : Nat → Reply (Except Setback α)) (start : Nanos)
    (made : Nat) (w : World σ) (t : Nanos) (rest : Trace) :
    r.Decided script start made [r.booking w] t
      (r.sequel start (made + 1) (t + (script made).took) (script made).bare.answer :: rest) :=
  ⟨booked_booking r w, made, rest, by simp, rfl⟩

theorem Decided.later {x : Event} {before after : Trace} {t : Nanos}
    (h : r.Decided script start (made + 1) before t after) (hx : x.start? = none) :
    r.Decided script start made (r.opening w ++ x :: before) t after := by
  obtain ⟨⟨earlier, time, wait, announced, rfl⟩, n, rest, hn, hafter⟩ := h
  refine ⟨⟨r.opening w ++ x :: earlier, time, wait, announced, by simp⟩, n, rest, ?_, hafter⟩
  rw [calls_attempt hx, hn, Nat.add_assoc]

theorem decided_of_last {x : Event} {before after : Trace} {t : Nanos}
    (hx : r.sequel start (made + 1) (r.afterCall script made w).clock.now
      (script made).bare.answer = x)
    (h : r.opening w ++ [x] = before ++ .called r.stage t :: after) :
    r.Decided script start made before t after := by
  subst hx
  rcases split_sequel h with ⟨rfl, rfl⟩ | ⟨x, mid, -, -, hrest⟩
  · exact decided_first r script start made w t []
  · simp at hrest

theorem Course.decided (h : Course r script start made w run) {before after : Trace} {t : Nanos}
    (htrace : run.trace = before ++ .called r.stage t :: after) :
    r.Decided script start made before t after := by
  induction h generalizing before with
  | withdrawn =>
      have hmem : Event.called r.stage t ∈ before ++ .called r.stage t :: after := by simp
      rw [← htrace] at hmem
      simp at hmem
  | interrupted =>
      have hmem : Event.called r.stage t ∈ before ++ .called r.stage t :: after := by simp
      rw [← htrace] at hmem
      simp [booking] at hmem
  | succeeded _ _ ha =>
      refine decided_of_last ?_ htrace
      rw [Reply.bare_ok ha]
      rfl
  | refused _ _ ha =>
      refine decided_of_last ?_ htrace
      rw [Reply.bare_error ha]
      rfl
  | exhausted _ _ ha hn =>
      refine decided_of_last ?_ htrace
      rw [Reply.bare_error ha]
      simp only [sequel, hn]
  | @retried made w cause delay run _ _ ha hn _ ih =>
      have hx : r.sequel start (made + 1) (r.afterCall script made w).clock.now
          (script made).bare.answer =
          .retrying r.action (made + 1) (r.afterCall script made w).clock.now delay cause := by
        rw [Reply.bare_error ha]
        simp only [sequel, hn]
      rw [Run.trace_after, List.append_assoc, List.singleton_append, ← hx] at htrace
      rcases split_sequel htrace with ⟨rfl, rfl⟩ | ⟨x, mid, hquiet, rfl, hrest⟩
      · exact decided_first r script start made w t run.trace
      · exact (ih hrest).later hquiet

theorem Course.action_eq (h : Course r script start made w run) {stage : Stage}
    {action : String} {time wait : Nanos} {announced : Bool}
    (he : .reserved stage action time wait announced ∈ run.trace) : action = r.action := by
  induction h with
  | withdrawn => simp at he
  | interrupted | succeeded | refused | exhausted =>
      simp only [Run.trace_after, withdrawn_trace, opening, booking, List.cons_append,
        List.nil_append, List.mem_cons, reduceCtorEq, List.not_mem_nil, or_false,
        Event.reserved.injEq] at he
      exact he.2.1
  | retried _ _ _ _ _ ih =>
      simp only [Run.trace_after, opening, booking, List.cons_append, List.nil_append,
        List.mem_cons, reduceCtorEq, false_or, Event.reserved.injEq] at he
      rcases he with he | he
      · exact he.2.1
      · exact ih he

/-! ## Turns and delays -/

theorem takeTurn_now_eq (h : (r.takeTurn w).clock.raised = false) :
    (r.takeTurn w).clock.now = w.clock.now + r.turnWait w := by
  unfold takeTurn at h ⊢
  by_cases hwait : r.turnWait w = 0
  · simp [hwait]
  · simp only [hwait, if_false] at h ⊢
    exact (Clock.wait_unraised h).2.1

theorem called_follows_booking (h : (r.takeTurn w).clock.raised = false) :
    (Event.called r.stage (r.takeTurn w).clock.now).Follows (r.booking w) :=
  ⟨rfl, takeTurn_now_eq h⟩

theorem Course.head (h : Course r script start made w run) {e : Event}
    (he : e ∈ run.trace.head?) :
    e = .cancelled r.action made ∨ w.clock.raised = false ∧ e = r.booking w := by
  cases h with
  | withdrawn => exact .inl (Option.some.inj he).symm
  | interrupted hw | succeeded hw | refused hw | exhausted hw | retried hw =>
      exact .inr ⟨hw, (Option.some.inj he).symm⟩

theorem Endless.head {fuel : Nat} {t : Trace} (h : Endless r script start fuel made w t) {e : Event}
    (he : e ∈ t.head?) : e = r.booking w := by
  cases h with
  | counted => cases he
  | again => exact (Option.some.inj he).symm

/-- Turns and delays are waited out before the run goes on. -/
theorem Course.paced (h : Course r script start made w run) : run.trace.Paced := by
  induction h with
  | withdrawn => exact .singleton _
  | interrupted => exact .cons_cons trivial (.singleton _)
  | succeeded _ ht | refused _ ht | exhausted _ ht =>
      exact .cons_cons (called_follows_booking ht) (.cons_cons trivial (.singleton _))
  | @retried made w cause delay run _ ht _ _ rest ih =>
      refine List.IsChain.append ?_ ih ?_
      · exact .cons_cons (called_follows_booking ht) (.cons_cons trivial (.singleton _))
      · intro last hlast next hnext
        obtain rfl := Option.some.inj hlast
        rcases rest.head hnext with rfl | ⟨hdelay, rfl⟩
        · trivial
        · exact (Clock.wait_unraised hdelay).2.1

theorem Course.paced_between (h : Course r script start made w run) {note note' : Event}
    (hwithdrawn : ∀ n, (Event.cancelled r.action n).Follows note)
    (hbooked : (r.booking w).Follows note) (hnote : ∀ e, note'.Follows e) :
    Trace.Paced (note :: run.trace ++ [note']) := by
  refine List.IsChain.append (.cons h.paced ?_) (.singleton _) ?_
  · intro e he
    rcases h.head he with rfl | ⟨-, rfl⟩
    · exact hwithdrawn made
    · exact hbooked
  · intro e _ last hlast
    obtain rfl := Option.some.inj hlast
    exact hnote e

theorem Endless.paced {fuel : Nat} {t : Trace} (h : Endless r script start fuel made w t) :
    t.Paced := by
  induction h with
  | counted => exact .nil
  | again _ ht _ _ rest ih =>
      refine .cons_cons (called_follows_booking ht) (.cons_cons trivial (.cons ih ?_))
      intro next hnext
      obtain rfl := rest.head hnext
      exact (Clock.wait_unraised rest.unraised).2.1

theorem paced_events {note : Event} (hwithdrawn : ∀ n, (Event.cancelled r.action n).Follows note)
    (hbooked : (r.booking w).Follows note) : Trace.Paced (note :: r.events script w) := by
  rcases events_cases r script w with ⟨run, -, hc, hevents⟩ | ⟨-, hendless | hevents⟩
  · rw [hevents]
    refine .cons hc.paced fun e he => ?_
    rcases hc.head he with rfl | ⟨-, rfl⟩
    · exact hwithdrawn 0
    · exact hbooked
  · refine .cons hendless.paced fun e he => ?_
    obtain rfl := hendless.head he
    exact hbooked
  · rw [hevents]
    exact .singleton note

/-- A run that is not withdrawn is over with its last call. -/
theorem Course.ended_at (h : Course r script start made w run)
    (hv : run.verdict ≠ .error .cancelled) : ∃ (before : Trace) (t : Nanos) (x : Event),
      run.trace = before ++ [.called r.stage t, x] ∧ x.start? = none ∧
        run.world.clock.now = t + (script (made + before.calls r.stage)).took := by
  induction h with
  | withdrawn | interrupted => exact (hv rfl).elim
  | succeeded | refused | exhausted =>
      refine ⟨[r.booking _], _, _, rfl, rfl, ?_⟩
      rw [calls_booking]
      exact afterCall_now
  | @retried made w cause delay run _ _ _ _ _ ih =>
      obtain ⟨before, t, x, htrace, hx, hnow⟩ := ih hv
      refine ⟨r.opening w ++ .retrying r.action (made + 1) (r.afterCall script made w).clock.now
        delay cause :: before, t, x, by simp [htrace], hx, ?_⟩
      rw [calls_attempt rfl, ← Nat.add_assoc]
      exact hnow

theorem Course.succeeded_at (h : Course r script start made w run) {v : α}
    (hv : run.result = .ok v) : ∃ (before : Trace) (t : Nanos) (x : Event),
      run.trace = before ++ [.called r.stage t, x] ∧ x.start? = none ∧
        run.world.clock.now = t + (script (made + before.calls r.stage)).took := by
  refine h.ended_at ?_
  rw [Run.verdict_ok hv]
  exact nofun

/-! ## Calls that follow -/

theorem Course.begun_of_calls (h : Course r script start made w run)
    (hn : 0 < run.trace.calls r.stage) : run.trace.begun? r.stage = some w.clock.now := by
  cases hw : w.clock.raised with
  | false => exact h.begun hw
  | true =>
      rw [h.of_raised hw] at hn
      simp [Trace.calls_cons, Event.isCall] at hn

theorem Course.calls_pos_of_verdict (h : Course r script start made w run)
    (hv : run.verdict ≠ .error .cancelled) : 0 < run.trace.calls r.stage := by
  cases h with
  | withdrawn | interrupted => exact (hv rfl).elim
  | succeeded | refused | exhausted | retried =>
      simp only [Run.trace_after, Trace.calls_append, calls_opening]
      omega

/-- A run that waits for another attempt makes it, unless it is withdrawn. -/
theorem Course.called_again (h : Course r script start made w run)
    (hv : run.verdict ≠ .error .cancelled) {before after : Trace} {action : String} {n : Nat}
    {now delay : Nanos} {cause : Cause}
    (htrace : run.trace = before ++ .retrying action n now delay cause :: after) :
    0 < after.calls r.stage := by
  induction h generalizing before with
  | withdrawn | interrupted => exact (hv rfl).elim
  | succeeded | refused | exhausted =>
      have hmem : Event.retrying action n now delay cause ∈
          before ++ .retrying action n now delay cause :: after := by simp
      rw [← htrace] at hmem
      simp [opening, booking] at hmem
  | retried _ _ _ _ rest ih =>
      rcases Trace.split_append htrace with ⟨mid, -, rfl⟩ | ⟨mid, -, hrest⟩
      · rw [Trace.calls_append]
        exact Nat.lt_add_left _ (rest.calls_pos_of_verdict hv)
      · exact ih hv hrest

/-! ## The calls of a stage -/

/-- The calls of a stage go by a retrier whose run starts at `start`: each is booked under its
action right before, and followed by what its policy and its budget make of the answer. -/
structure Proceeds (l : Retrier σ) (readings : Replies (Except Setback Unit)) (events : Trace)
    (start : Nanos) : Prop where
  action_eq : ∀ {action time wait announced},
    .reserved l.stage action time wait announced ∈ events → action = l.action
  booked : ∀ {before after : Trace} {t}, events = before ++ .called l.stage t :: after →
    ∃ earlier time wait announced,
      before = earlier ++ [.reserved l.stage l.action time wait announced]
  decided : ∀ {before after : Trace} {t}, events = before ++ .called l.stage t :: after →
    ∃ reading rest, readings l.stage (before.calls l.stage) = some reading ∧
      after = l.sequel start (before.calls l.stage + 1) (t + reading.took) reading.answer :: rest

theorem Course.proceeds (h : Course r script start 0 w run) (ha : r.Answers script 0 readings) :
    r.Proceeds readings run.trace start := by
  refine
    { action_eq := h.action_eq
      booked := fun htrace => (h.decided htrace).booked
      decided := ?_ }
  intro before after t htrace
  obtain ⟨n, rest, hn, hafter⟩ := (h.decided htrace).decided
  rw [Nat.zero_add] at hn
  subst hn
  exact ⟨(script (before.calls r.stage)).bare, rest, by rw [ha, Nat.zero_add], hafter⟩

theorem Proceeds.embed {pre events post : Trace} (h : r.Proceeds readings events start)
    (hpre : ∀ e ∈ pre, e.stage? ≠ some r.stage) (hpost : ∀ e ∈ post, e.stage? ≠ some r.stage) :
    r.Proceeds readings (pre ++ events ++ post) start := by
  have hsplit {before after : Trace} {t : Nanos}
      (hevents : pre ++ events ++ post = before ++ .called r.stage t :: after) :=
    Trace.split_middle hevents (fun he => hpre _ he rfl) fun he => hpost _ he rfl
  refine
    { action_eq := ?_
      booked := ?_
      decided := ?_ }
  · intro action time wait announced he
    rcases List.mem_append.mp he with he | he
    · rcases List.mem_append.mp he with he | he
      · exact (hpre _ he rfl).elim
      · exact h.action_eq he
    · exact (hpost _ he rfl).elim
  · intro before after t hevents
    obtain ⟨front, rest, hmid, rfl, -⟩ := hsplit hevents
    obtain ⟨earlier, time, wait, announced, rfl⟩ := h.booked hmid
    exact ⟨pre ++ earlier, time, wait, announced, (List.append_assoc _ _ _).symm⟩
  · intro before after t hevents
    obtain ⟨front, rest, hmid, rfl, rfl⟩ := hsplit hevents
    obtain ⟨reading, later, hreading, hdecided⟩ := h.decided hmid
    refine ⟨reading, later ++ post, ?_, ?_⟩
    · rw [Trace.calls_append, Trace.calls_eq_zero hpre, Nat.zero_add, hreading]
    · rw [Trace.calls_append, Trace.calls_eq_zero hpre, Nat.zero_add, hdecided]
      rfl

end Retrier

end Settle
