import Settle.Proofs.Clock
import Settle.Proofs.Trace

/-! # Where a signal finds a run

The calls of a trace are numbered for each stage, and replies say how a numbered call was
answered. The signal is raised in a wait or in a call, at a place in the trace as well as at a point
in time, since calls and waits may take no time. -/

namespace Settle

variable {γ : Type}

/-- How numbered calls are answered, as far as they can be made. -/
abbrev Replies (γ : Type) := Stage → Nat → Option (Reply γ)

namespace Trace

/-- The replies to the calls that follow these events. -/
def shift (events : Trace) (replies : Replies γ) : Replies γ :=
  fun stage n => replies stage (events.calls stage + n)

/-- A call among the events raises the signal as it ends, at this point in time. -/
inductive RaisesAt (replies : Replies γ) (events : Trace) : Nanos → Prop where
  | intro {before after : Trace} {stage called reply}
      (htrace : events = before ++ .called stage called :: after)
      (hreply : replies stage (before.calls stage) = some reply)
      (hi : reply.interrupts = true) : RaisesAt replies events (called + reply.took)

variable {replies : Replies γ} {s t : Trace} {u : Nanos}

theorem not_raisesAt (h : ∀ stage, t.calls stage = 0) : ¬ t.RaisesAt replies u := by
  rintro @⟨before, after, stage, called, reply, rfl, -, -⟩
  have hcalls := h stage
  simp [calls_cons, Event.isCall] at hcalls

theorem Quiet.not_raisesAt (h : t.Quiet) : ¬ t.RaisesAt replies u :=
  Trace.not_raisesAt h.calls_eq_zero

theorem raisesAt_append : RaisesAt replies (s ++ t) u ↔
    RaisesAt replies s u ∨ RaisesAt (s.shift replies) t u := by
  constructor
  · rintro ⟨htrace, hreply, hi⟩
    rcases split_append htrace with ⟨mid, hs, -⟩ | ⟨mid, rfl, ht⟩
    · exact .inl ⟨hs, hreply, hi⟩
    · rw [calls_append] at hreply
      exact .inr ⟨ht, hreply, hi⟩
  · rintro (⟨hs, hreply, hi⟩ | ⟨ht, hreply, hi⟩)
    · exact ⟨split_embed [] t hs, hreply, hi⟩
    · rw [shift, ← calls_append] at hreply
      have htrace := split_embed s [] ht
      rw [List.append_nil] at htrace
      exact ⟨htrace, hreply, hi⟩

theorem raisesAt_embed {pre events post : Trace} (hpre : ∀ u, ¬ pre.RaisesAt replies u)
    (hpost : post.Quiet) :
    RaisesAt replies (pre ++ events ++ post) u ↔ RaisesAt (pre.shift replies) events u := by
  simp [raisesAt_append, hpre, hpost.not_raisesAt]

end Trace

/-- The signal does not come before `t`: it is not due earlier, and no call raises it earlier. -/
structure NotBefore (replies : Replies γ) (due : Option Nanos) (events : Trace) (t : Nanos) :
    Prop where
  le_due : ∀ u, due = some u → t ≤ u
  le_raise : ∀ u, events.RaisesAt replies u → t ≤ u

/-- The signal is raised at `t`: it falls due then, or a call raises it then, and it does not come
earlier. -/
structure SignalAt (replies : Replies γ) (due : Option Nanos) (events : Trace) (t : Nanos) :
    Prop extends NotBefore replies due events t where
  source : due = some t ∨ events.RaisesAt replies t

/-- The signal is raised at `t` in an event: it falls due in a wait, which it ends there, or during
a call, or the call in flight raises it as it ends. The wait or the call is over at `finish`. -/
inductive RaisedIn (replies : Replies γ) (due : Option Nanos) (before : Trace) (t : Nanos) :
    Event → Nanos → Option (Stage × Reply γ) → Prop where
  | turn {stage action booked wait announced} (hdue : due = some t) (hwait : wait ≠ 0)
      (hbooked : booked ≤ t) (ht : t ≤ booked + wait) :
      RaisedIn replies due before t (.reserved stage action booked wait announced) t none
  | backoff {action n failed delay cause} (hdue : due = some t) (hfailed : failed ≤ t)
      (ht : t ≤ failed + delay) :
      RaisedIn replies due before t (.retrying action n failed delay cause) t none
  | call {stage called reply} (hreply : replies stage (before.calls stage) = some reply)
      (hcalled : called ≤ t) (ht : t ≤ called + reply.took)
      (hsource : due = some t ∧ reply.took ≠ 0 ∨
        reply.interrupts = true ∧ t = called + reply.took) :
      RaisedIn replies due before t (.called stage called) (called + reply.took)
        (some (stage, reply))

variable {replies : Replies γ} {due : Option Nanos} {pre events post before after : Trace}
  {e : Event} {finish t u : Nanos} {flight : Option (Stage × Reply γ)}

/-- A signal is raised once. -/
theorem SignalAt.unique (ht : SignalAt replies due events t)
    (hu : SignalAt replies due events u) : t = u := by
  refine Nat.le_antisymm ?_ ?_
  · exact hu.source.elim (ht.le_due u) (ht.le_raise u)
  · exact ht.source.elim (hu.le_due t) (hu.le_raise t)

theorem NotBefore.front (h : NotBefore replies due (events ++ post) t) :
    NotBefore replies due events t where
  le_due := h.le_due
  le_raise u hu := h.le_raise u (Trace.raisesAt_append.mpr (.inl hu))

theorem NotBefore.back (h : NotBefore replies due (pre ++ events) t) :
    NotBefore (pre.shift replies) due events t where
  le_due := h.le_due
  le_raise u hu := h.le_raise u (Trace.raisesAt_append.mpr (.inr hu))

/-- Events in front that leave the signal alone, and quiet events behind, do not change when it is
raised. -/
theorem signalAt_embed (hpre : ∀ u, ¬ pre.RaisesAt replies u) (hpost : post.Quiet) :
    SignalAt replies due (pre ++ events ++ post) t ↔ SignalAt (pre.shift replies) due events t := by
  have hraise (u : Nanos) : Trace.RaisesAt replies (pre ++ events ++ post) u ↔
      events.RaisesAt (pre.shift replies) u := Trace.raisesAt_embed hpre hpost
  constructor
  · rintro ⟨hnot, hsource⟩
    exact ⟨hnot.front.back, by rwa [← hraise]⟩
  · rintro ⟨⟨hdue, hle⟩, hsource⟩
    exact ⟨⟨hdue, fun u hu => hle u ((hraise u).mp hu)⟩, by rwa [hraise]⟩

theorem raisedIn_shift : RaisedIn (pre.shift replies) due before t e finish flight ↔
    RaisedIn replies due (pre ++ before) t e finish flight := by
  constructor
  · intro h
    cases h with
    | turn hdue hwait hbooked ht => exact .turn hdue hwait hbooked ht
    | backoff hdue hfailed ht => exact .backoff hdue hfailed ht
    | call hreply hcalled ht hsource =>
        exact .call (by rwa [Trace.calls_append]) hcalled ht hsource
  · intro h
    cases h with
    | turn hdue hwait hbooked ht => exact .turn hdue hwait hbooked ht
    | backoff hdue hfailed ht => exact .backoff hdue hfailed ht
    | call hreply hcalled ht hsource =>
        exact .call (by rwa [Trace.shift, ← Trace.calls_append]) hcalled ht hsource

/-- The signal is raised at `t` in one of the events, and nothing begins later. -/
structure Met (replies : Replies γ) (due : Option Nanos) (events : Trace) (t : Nanos) : Prop where
  signal : SignalAt replies due events t
  found : ∃ before e after finish flight, events = before ++ e :: after ∧
    RaisedIn replies due before t e finish flight
  begunBy : events.BegunBy t

theorem Met.embed (h : Met (pre.shift replies) due events t)
    (hraise : ∀ u, ¬ pre.RaisesAt replies u) (hbegun : pre.BegunBy t) (hpost : post.Quiet) :
    Met replies due (pre ++ events ++ post) t where
  signal := (signalAt_embed hraise hpost).mpr h.signal
  found := by
    obtain ⟨before, e, after, finish, flight, htrace, he⟩ := h.found
    exact ⟨pre ++ before, e, after ++ post, finish, flight, Trace.split_embed pre post htrace,
      raisedIn_shift.mp he⟩
  begunBy := by
    rw [Trace.begunBy_append, Trace.begunBy_append]
    exact ⟨⟨hbegun, h.begunBy⟩, hpost.begunBy t⟩

end Settle
