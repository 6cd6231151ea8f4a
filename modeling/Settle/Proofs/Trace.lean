import Settle.Trace

/-! # Reading a trace

Positions in a trace are named by splitting it: `before ++ e :: after` is a trace with the event
`e` in it. -/

namespace Settle

namespace Event

def booked? : Event → Option Nanos
  | .reserved _ _ time _ _ => some time
  | _ => none

/-- When a turn is booked or a call starts. -/
def start? : Event → Option Nanos
  | .reserved _ _ time _ _ => some time
  | .called _ time => some time
  | _ => none

theorem start?_of_booked {e : Event} {t : Nanos} (h : e.booked? = some t) : e.start? = some t := by
  cases e <;> first | exact h | cases h

/-- A reconciliation goes on to poll. -/
def polls : Event → Bool
  | .advanced _ .issuing .polling => true
  | _ => false

def stage? : Event → Option Stage
  | .reserved stage _ _ _ _ => some stage
  | .called stage _ => some stage
  | _ => none

end Event

namespace Trace

/-- Nothing is begun: no turn is booked and no call starts. -/
def Quiet (t : Trace) : Prop := ∀ e ∈ t, e.start? = none

/-- What is begun is begun by `u`. -/
def BegunBy (t : Trace) (u : Nanos) : Prop := ∀ e ∈ t, ∀ v, e.start? = some v → v ≤ u

/-- When the first turn of a stage is booked. -/
def begun? (t : Trace) (stage : Stage) : Option Nanos :=
  t.findSome? fun e => if e.stage? = some stage then e.booked? else none

/-- The events before the polls, or all if nothing is polled. -/
def issuing (t : Trace) : Trace := t.takeWhile fun e => !e.polls

/-- The events go on to polls. -/
def Polls (t : Trace) : Prop := ∃ e ∈ t, e.polls = true

@[simp] theorem quiet_nil : Quiet [] := nofun

@[simp] theorem quiet_cons {e : Event} {t : Trace} :
    Quiet (e :: t) ↔ e.start? = none ∧ Quiet t := List.forall_mem_cons

@[simp] theorem quiet_append {s t : Trace} : Quiet (s ++ t) ↔ Quiet s ∧ Quiet t :=
  List.forall_mem_append

theorem Quiet.begunBy {t : Trace} (h : t.Quiet) (u : Nanos) : t.BegunBy u := by
  intro e he v hv
  rw [h e he] at hv
  cases hv

theorem BegunBy.mono {t : Trace} {u v : Nanos} (h : t.BegunBy u) (huv : u ≤ v) : t.BegunBy v :=
  fun e he s hs => Nat.le_trans (h e he s hs) huv

theorem begunBy_cons {e : Event} {t : Trace} {u : Nanos} :
    BegunBy (e :: t) u ↔ (∀ v, e.start? = some v → v ≤ u) ∧ BegunBy t u := List.forall_mem_cons

theorem begunBy_append {s t : Trace} {u : Nanos} :
    BegunBy (s ++ t) u ↔ BegunBy s u ∧ BegunBy t u := List.forall_mem_append

@[simp] theorem calls_nil (stage : Stage) : calls [] stage = 0 := rfl

@[simp] theorem calls_append (s t : Trace) (stage : Stage) :
    calls (s ++ t) stage = calls s stage + calls t stage := List.countP_append

theorem calls_cons (e : Event) (t : Trace) (stage : Stage) :
    calls (e :: t) stage = calls t stage + if e.isCall stage then 1 else 0 := List.countP_cons

theorem calls_called (before after : Trace) (stage : Stage) (time : Nanos) :
    calls (before ++ .called stage time :: after) stage =
      before.calls stage + 1 + after.calls stage := by
  simp only [calls_append, calls_cons, Event.isCall, decide_true, if_true]
  omega

theorem calls_eq_zero {t : Trace} {stage : Stage} (h : ∀ e ∈ t, e.stage? ≠ some stage) :
    t.calls stage = 0 := by
  refine List.countP_eq_zero.mpr fun e he => ?_
  have hs := h e he
  cases e <;> simp_all [Event.stage?, Event.isCall]

theorem Quiet.stage_ne {t : Trace} (h : t.Quiet) (stage : Stage) :
    ∀ e ∈ t, e.stage? ≠ some stage := by
  intro e he
  have hs := h e he
  cases e <;> simp_all [Event.start?, Event.stage?]

theorem Quiet.calls_eq_zero {t : Trace} (h : t.Quiet) (stage : Stage) : t.calls stage = 0 :=
  Trace.calls_eq_zero (h.stage_ne stage)

theorem stage_ne_between {t : Trace} {stage : Stage} {note note' : Event}
    (h : ∀ e ∈ t, e.stage? ≠ some stage) (hnote : note.stage? = none)
    (hnote' : note'.stage? = none) : ∀ e ∈ [note] ++ t ++ [note'], e.stage? ≠ some stage := by
  refine List.forall_mem_append.mpr ⟨List.forall_mem_append.mpr ⟨?_, h⟩, ?_⟩
  · simp [hnote]
  · simp [hnote']

theorem begun?_append {s t : Trace} {stage : Stage} (h : ∀ e ∈ s, e.stage? ≠ some stage) :
    (s ++ t).begun? stage = t.begun? stage := by
  have hnone : s.begun? stage = none := by
    refine List.findSome?_eq_none_iff.mpr fun e he => ?_
    rw [if_neg (h e he)]
  unfold begun? at hnone ⊢
  rw [List.findSome?_append, hnone, Option.none_or]

theorem begun?_of_front {s t : Trace} {stage : Stage} {u : Nanos}
    (h : s.begun? stage = some u) : (s ++ t).begun? stage = some u := by
  unfold begun? at h ⊢
  rw [List.findSome?_append, h, Option.some_or]

theorem split_cons {x e : Event} {t before after : Trace} (h : x :: t = before ++ e :: after) :
    (before = [] ∧ e = x ∧ after = t) ∨ ∃ mid, before = x :: mid ∧ t = mid ++ e :: after := by
  cases before with
  | nil =>
      obtain ⟨rfl, rfl⟩ := List.cons.inj h
      exact .inl ⟨rfl, rfl, rfl⟩
  | cons y before =>
      obtain ⟨rfl, rfl⟩ := List.cons.inj h
      exact .inr ⟨before, rfl, rfl⟩

theorem split_singleton {x e : Event} {before after : Trace} (h : [x] = before ++ e :: after) :
    before = [] ∧ e = x ∧ after = [] := by
  rcases split_cons h with hx | ⟨mid, -, hnil⟩
  · exact hx
  · simp at hnil

theorem split_pair {x y e : Event} {before after : Trace} (h : [x, y] = before ++ e :: after) :
    (before = [] ∧ e = x ∧ after = [y]) ∨ (before = [x] ∧ e = y ∧ after = []) := by
  rcases split_cons h with hx | ⟨mid, rfl, hy⟩
  · exact .inl hx
  · obtain ⟨rfl, rfl, rfl⟩ := split_singleton hy
    exact .inr ⟨rfl, rfl, rfl⟩

/-- An event of two traces in a row stands in one of them. -/
theorem split_append {s t before after : Trace} {e : Event}
    (h : s ++ t = before ++ e :: after) :
    (∃ mid, s = before ++ e :: mid ∧ after = mid ++ t) ∨
      ∃ mid, before = s ++ mid ∧ t = mid ++ e :: after := by
  rcases List.append_eq_append_iff.mp h with ⟨mid, hb, ht⟩ | ⟨mid, hs, ht⟩
  · exact .inr ⟨mid, hb, ht⟩
  · cases mid with
    | nil => exact .inr ⟨[], by simpa using hs.symm, by simpa using ht.symm⟩
    | cons x mid =>
        obtain ⟨rfl, rfl⟩ := List.cons.inj ht
        exact .inl ⟨mid, hs, rfl⟩

theorem split_embed {t before after : Trace} {e : Event} (pre post : Trace)
    (h : t = before ++ e :: after) :
    pre ++ t ++ post = (pre ++ before) ++ e :: (after ++ post) := by
  simp [h]

/-- An event that stands in the middle of three traces but in none of the outer ones. -/
theorem split_middle {pre events post before after : Trace} {e : Event}
    (h : pre ++ events ++ post = before ++ e :: after) (hpre : e ∉ pre) (hpost : e ∉ post) :
    ∃ front rest, events = front ++ e :: rest ∧ before = pre ++ front ∧ after = rest ++ post := by
  rcases split_append h with ⟨mid, hfront, rfl⟩ | ⟨mid, -, hlast⟩
  · rcases split_append hfront with ⟨rest, hfirst, -⟩ | ⟨front, rfl, hevents⟩
    · exact (hpre (by simp [hfirst])).elim
    · exact ⟨front, mid, hevents, rfl, rfl⟩
  · exact (hpost (by simp [hlast])).elim

end Trace

end Settle
