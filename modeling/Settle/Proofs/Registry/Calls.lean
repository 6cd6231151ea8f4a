import Mathlib.Tactic.Tauto
import Settle.Registry

/-! # Calls on a registry

A registry changes by four calls. What one call does is said of the pairs of an id and a signal
that the registry holds and of the signals that are raised; a row of calls is followed from there.
-/

namespace Settle.Registry

/-- A call on a registry. -/
inductive Call where
  | register (id : String)
  | unregister (id : String)
  | requestCancel (id : String)
  | cancelAll
  deriving DecidableEq, Repr

namespace Call

/-- The call asks for the operation of an id to be cancelled. -/
def Reaches (id : String) : Call → Prop
  | .requestCancel other => other = id
  | .cancelAll => True
  | .register _ | .unregister _ => False

theorem reaches_cancelAll (id : String) : Reaches id .cancelAll := trivial

theorem reaches_requestCancel (id : String) : Reaches id (.requestCancel id) := rfl

/-- The call lets the registry forget the signal that it had for an id. -/
def Drops (id : String) (c : Call) : Prop := c = .register id ∨ c = .unregister id

end Call

/-- The registry after a call. -/
def call (r : Registry) : Call → Registry
  | .register id => (r.register id).2
  | .unregister id => r.unregister id
  | .requestCancel id => (r.requestCancel id).2
  | .cancelAll => r.cancelAll

def callAll (r : Registry) (calls : List Call) : Registry := calls.foldl call r

/-- The registry after a row of calls, from an empty one. -/
def ofCalls (calls : List Call) : Registry := callAll {} calls

variable {r : Registry} {id : String} {s : Signal} {c : Call} {calls later : List Call}

/-! ## One call -/

theorem isRaised_iff : r.isRaised s = true ↔ s ∈ r.raised := decide_eq_true_iff

/-- Every id stands once, and all signals in use have been made. -/
structure Sound (r : Registry) : Prop where
  ids : (r.operations.map (·.1)).Nodup
  held : ∀ {id s}, (id, s) ∈ r.operations → s.number < r.made
  raised : ∀ {s}, r.isRaised s = true → s.number < r.made

theorem lookup_eq_some_iff (h : r.Sound) :
    r.operations.lookup id = some s ↔ (id, s) ∈ r.operations := by
  have hids := h.ids
  generalize r.operations = entries at hids ⊢
  induction entries with
  | nil => simp
  | cons entry entries ih =>
      obtain ⟨other, x⟩ := entry
      simp only [List.map_cons, List.nodup_cons] at hids
      by_cases hid : id = other
      · subst hid
        have hnot : (id, s) ∉ entries := fun hmem => hids.1 (List.mem_map_of_mem hmem)
        simp [hnot, eq_comm]
      · have hne : (id == other) = false := beq_false_of_ne hid
        simp [List.lookup_cons, hne, hid, ih hids.2]

theorem requestCancel_fst :
    (r.requestCancel id).1 = true ↔ ∃ s, (id, s) ∈ r.operations := by
  unfold requestCancel
  cases hl : r.operations.lookup id with
  | none =>
      have hnone := List.lookup_eq_none_iff.mp hl
      simp only [Bool.false_eq_true, false_iff, not_exists]
      intro s hs
      simpa using hnone _ hs
  | some s =>
      obtain ⟨front, back, hsplit, -⟩ := List.lookup_eq_some_iff.mp hl
      simp only [true_iff]
      exact ⟨s, by simp [hsplit]⟩

/-- A call keeps the pairs whose id it does not drop, and a registration adds one. -/
theorem mem_operations_call : (id, s) ∈ (r.call c).operations ↔
    ((id, s) ∈ r.operations ∧ ¬ c.Drops id) ∨ (c = .register id ∧ s = ⟨r.made⟩) := by
  cases c with
  | register other =>
      by_cases hid : id = other
      · simp [call, register, fresh, Call.Drops, hid]
      · simp [call, register, fresh, Call.Drops, hid, Ne.symm hid]
  | unregister other =>
      simp only [call, unregister, Call.Drops, List.mem_filter, decide_eq_true_eq,
        reduceCtorEq, false_or, false_and, or_false, Call.unregister.injEq]
      exact and_congr_right fun _ => not_congr eq_comm
  | requestCancel other =>
      simp only [call, requestCancel]
      split <;> simp [raise, Call.Drops]
  | cancelAll => simp [call, cancelAll, Call.Drops]

/-- A call raises the signals that are held for the ids it reaches, and no others. -/
theorem isRaised_call (h : r.Sound) : (r.call c).isRaised s = true ↔
    r.isRaised s = true ∨ ∃ id, (id, s) ∈ r.operations ∧ c.Reaches id := by
  rw [isRaised_iff, isRaised_iff]
  cases c with
  | register | unregister => simp [call, register, fresh, unregister, Call.Reaches]
  | requestCancel other =>
      have hother : r.operations.lookup other = some s ↔ (other, s) ∈ r.operations :=
        lookup_eq_some_iff h
      simp only [call, requestCancel, Call.Reaches]
      cases hl : r.operations.lookup other with
      | none => simp_all
      | some x =>
          simp only [hl, Option.some.injEq] at hother
          simp only [raise, List.mem_cons, exists_eq_right', ← hother, eq_comm (a := s)]
          exact or_comm
  | cancelAll =>
      simp only [call, cancelAll, Call.Reaches, List.mem_append, List.mem_map, Prod.exists,
        exists_eq_right, and_true]
      exact or_comm

theorem made_le_call : r.made ≤ (r.call c).made := by
  cases c with
  | register => exact Nat.le_succ r.made
  | unregister | cancelAll => exact Nat.le_refl r.made
  | requestCancel =>
      simp only [call, requestCancel]
      split <;> exact Nat.le_refl r.made

theorem Sound.call (h : r.Sound) (c : Call) : (r.call c).Sound := by
  have hmade := made_le_call (r := r) (c := c)
  refine ⟨?_, ?_, ?_⟩
  · have hfilter (id : String) : ((r.operations.filter (·.1 ≠ id)).map (·.1)).Nodup :=
      h.ids.sublist ((List.filter_sublist).map _)
    cases c with
    | register id =>
        refine List.nodup_cons.mpr ⟨?_, hfilter id⟩
        simp
    | unregister id => exact hfilter id
    | requestCancel id =>
        simp only [Registry.call, requestCancel]
        split <;> exact h.ids
    | cancelAll => exact h.ids
  · intro id s hs
    rcases mem_operations_call.mp hs with ⟨hold, -⟩ | ⟨rfl, rfl⟩
    · exact Nat.lt_of_lt_of_le (h.held hold) hmade
    · exact Nat.lt_succ_self r.made
  · intro s hs
    rcases (isRaised_call h).mp hs with hold | ⟨id, hheld, -⟩
    · exact Nat.lt_of_lt_of_le (h.raised hold) hmade
    · exact Nat.lt_of_lt_of_le (h.held hheld) hmade

/-! ## Rows of calls -/

theorem callAll_nil (r : Registry) : r.callAll [] = r := rfl

@[simp] theorem callAll_cons (r : Registry) (c : Call) (calls : List Call) :
    r.callAll (c :: calls) = (r.call c).callAll calls := rfl

theorem callAll_append (r : Registry) (calls later : List Call) :
    r.callAll (calls ++ later) = (r.callAll calls).callAll later := List.foldl_append

theorem ofCalls_append (calls later : List Call) :
    ofCalls (calls ++ later) = (ofCalls calls).callAll later := callAll_append _ _ _

theorem Sound.callAll (h : r.Sound) (calls : List Call) : (r.callAll calls).Sound := by
  induction calls generalizing r with
  | nil => exact h
  | cons c calls ih => exact ih (h.call c)

theorem sound_empty : ({} : Registry).Sound where
  ids := List.nodup_nil
  held := nofun
  raised := nofun

theorem sound_ofCalls (calls : List Call) : (ofCalls calls).Sound := sound_empty.callAll calls

theorem isRaised_callAll (h : r.Sound) (hs : r.isRaised s = true) :
    (r.callAll calls).isRaised s = true := by
  induction calls generalizing r with
  | nil => exact hs
  | cons c calls ih => exact ih (h.call c) ((isRaised_call h).mpr (.inl hs))

/-- A registration of an id is the latest one, and the id has not been unregistered since. -/
def Stands (id : String) (later : List Call) : Prop :=
  .register id ∉ later ∧ .unregister id ∉ later

theorem stands_cons : Stands id (c :: later) ↔ ¬ c.Drops id ∧ Stands id later := by
  simp only [Stands, Call.Drops, List.mem_cons, not_or, eq_comm (a := c)]
  tauto

/-- A call reaches the operation of an id while its registration stands. -/
def Reached (id : String) (later : List Call) : Prop :=
  ∃ front c back, later = front ++ c :: back ∧ c.Reaches id ∧ Stands id front

theorem not_reached_nil : ¬ Reached id [] := by
  rintro ⟨front, c, back, h, -⟩
  simp at h

theorem reached_cons :
    Reached id (c :: later) ↔ c.Reaches id ∨ (¬ c.Drops id ∧ Reached id later) := by
  constructor
  · rintro ⟨front, x, back, h, hx, hfront⟩
    cases front with
    | nil =>
        obtain ⟨rfl, -⟩ := List.cons.inj h
        exact .inl hx
    | cons y front =>
        obtain ⟨rfl, rfl⟩ := List.cons.inj h
        obtain ⟨hy, hfront⟩ := stands_cons.mp hfront
        exact .inr ⟨hy, front, x, back, rfl, hx, hfront⟩
  · rintro (hc | ⟨hc, front, x, back, rfl, hx, hfront⟩)
    · exact ⟨[], c, later, rfl, hc, by simp [Stands]⟩
    · exact ⟨c :: front, x, back, rfl, hx, stands_cons.mpr ⟨hc, hfront⟩⟩

/-- A signal that is held for one id at most is raised by the calls that reach this id while its
registration stands. A registration in between makes another signal, which keeps this true. -/
theorem isRaised_callAll_iff (h : r.Sound) (hmade : s.number < r.made)
    (hown : ∀ other, (other, s) ∈ r.operations → other = id) :
    (r.callAll later).isRaised s = true ↔
      r.isRaised s = true ∨ ((id, s) ∈ r.operations ∧ Reached id later) := by
  induction later generalizing r with
  | nil => simp [callAll_nil, not_reached_nil]
  | cons c later ih =>
      have hnew : s ≠ ⟨r.made⟩ := by
        rintro rfl
        exact Nat.lt_irrefl _ hmade
      have hheld : (id, s) ∈ (r.call c).operations ↔ (id, s) ∈ r.operations ∧ ¬ c.Drops id := by
        simp [mem_operations_call, hnew]
      have hraised : (r.call c).isRaised s = true ↔
          r.isRaised s = true ∨ ((id, s) ∈ r.operations ∧ c.Reaches id) := by
        rw [isRaised_call h]
        refine or_congr_right ⟨?_, fun hc => ⟨id, hc⟩⟩
        rintro ⟨other, hother, hc⟩
        obtain rfl := hown other hother
        exact ⟨hother, hc⟩
      have hstill : ∀ other, (other, s) ∈ (r.call c).operations → other = id := by
        intro other hother
        rcases mem_operations_call.mp hother with ⟨hold, -⟩ | ⟨-, hs⟩
        · exact hown other hold
        · exact (hnew hs).elim
      rw [callAll_cons, ih (h.call c) (Nat.lt_of_lt_of_le hmade made_le_call) hstill, hraised,
        hheld, reached_cons]
      tauto

/-! ## Registrations -/

/-- What a registration after these calls gives back. -/
def context (before : List Call) (id : String) : Context := ((ofCalls before).register id).1

/-- The signal of a registration is not raised, and is held for its id alone. -/
theorem isRaised_context_iff (before : List Call) (id : String) (later : List Call) :
    (ofCalls (before ++ .register id :: later)).isRaised (context before id).signal = true ↔
      Reached id later := by
  have hsound := sound_ofCalls before
  rw [ofCalls_append, callAll_cons]
  generalize hb : ofCalls before = r at hsound
  have hsignal : (context before id).signal = ⟨r.made⟩ := by rw [context, hb]; rfl
  have hheld : (id, ⟨r.made⟩) ∈ (r.call (.register id)).operations :=
    mem_operations_call.mpr (.inr ⟨rfl, rfl⟩)
  have hown : ∀ other, (other, ⟨r.made⟩) ∈ (r.call (.register id)).operations → other = id := by
    intro other hother
    rcases mem_operations_call.mp hother with ⟨hold, -⟩ | ⟨hc, -⟩
    · exact (Nat.lt_irrefl _ (hsound.held hold)).elim
    · exact (Call.register.inj hc).symm
  have hquiet : ¬ (r.call (.register id)).isRaised ⟨r.made⟩ = true := by
    intro hraised
    exact Nat.lt_irrefl _ (hsound.raised hraised)
  rw [hsignal, isRaised_callAll_iff (hsound.call _) (Nat.lt_succ_self r.made) hown]
  simp [hquiet, hheld]

/-- An id is registered and has not been unregistered since. -/
def Registered (calls : List Call) (id : String) : Prop :=
  ∃ before after, calls = before ++ .register id :: after ∧ .unregister id ∉ after

theorem registered_cons : Registered (c :: later) id ↔
    (c = .register id ∧ .unregister id ∉ later) ∨ Registered later id := by
  constructor
  · rintro ⟨before, after, h, hafter⟩
    cases before with
    | nil =>
        obtain ⟨rfl, rfl⟩ := List.cons.inj h
        exact .inl ⟨rfl, hafter⟩
    | cons x before =>
        obtain ⟨rfl, rfl⟩ := List.cons.inj h
        exact .inr ⟨before, after, rfl, hafter⟩
  · rintro (⟨rfl, hafter⟩ | ⟨before, after, rfl, hafter⟩)
    · exact ⟨[], later, rfl, hafter⟩
    · exact ⟨c :: before, after, rfl, hafter⟩

theorem exists_mem_callAll_iff : (∃ s, (id, s) ∈ (r.callAll later).operations) ↔
    ((∃ s, (id, s) ∈ r.operations) ∧ .unregister id ∉ later) ∨ Registered later id := by
  induction later generalizing r with
  | nil => simp [callAll_nil, Registered]
  | cons c later ih =>
      have hheld : (∃ s, (id, s) ∈ (r.call c).operations) ↔
          c = .register id ∨ ((∃ s, (id, s) ∈ r.operations) ∧ c ≠ .unregister id) := by
        simp only [mem_operations_call, Call.Drops]
        by_cases hc : c = .register id
        · simp [hc]
        · simp [hc]
      rw [callAll_cons, ih, hheld, registered_cons, List.mem_cons, not_or, eq_comm (b := c)]
      tauto

theorem exists_mem_ofCalls_iff :
    (∃ s, (id, s) ∈ (ofCalls calls).operations) ↔ Registered calls id := by
  simp [ofCalls, exists_mem_callAll_iff]

end Settle.Registry
