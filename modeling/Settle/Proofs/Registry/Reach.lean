import Mathlib.Data.Set.Card
import Settle.Proofs.Registry.Calls

/-! # How far a cancellation reaches

A cancellation raises the signal of the latest registration of an id and no other. An operation
that is in flight when its id is registered again is therefore out of reach. -/

namespace Settle.Registry

variable {id : String} {s : Signal} {c : Call} {calls later : List Call}

/-! ## Any row of calls -/

theorem length_operations (calls : List Call) :
    ((ofCalls calls).operations.length : ℕ∞) = {id | Registered calls id}.encard := by
  have hids := (sound_ofCalls calls).ids
  have hset : {id | Registered calls id} =
      (((ofCalls calls).operations.map (·.1)).toFinset : Set String) := by
    ext id
    simp [← exists_mem_ofCalls_iff]
  rw [hset, Set.encard_coe_eq_coe_finsetCard, List.toFinset_card_of_nodup hids, List.length_map]

/-- What a row of calls makes of the contexts that its registrations gave back, and what the
registry answers after it. -/
structure ReachSpec (calls : List Call) : Prop where
  raised_iff : ∀ {before id after}, calls = before ++ .register id :: after →
    ((ofCalls calls).isRaised (context before id).signal = true ↔ Reached id after)
  lasting : ∀ {s} later, (ofCalls calls).isRaised s = true →
    (ofCalls (calls ++ later)).isRaised s = true
  fresh : ∀ id, (ofCalls (calls ++ [.register id])).isRaised (context calls id).signal = false
  known_iff : ∀ id, ((ofCalls calls).requestCancel id).1 = true ↔ Registered calls id
  inFlight_eq : ((ofCalls calls).inFlight : ℕ∞) = {id | Registered calls id}.encard

/-- A context is cancelled by the calls that reach its id while its registration stands, and by
nothing else; it stays so, and a later registration of the id starts afresh. -/
theorem ofCalls_reach (calls : List Call) : ReachSpec calls := by
  have hsound := sound_ofCalls calls
  refine
    { raised_iff := ?_
      lasting := ?_
      fresh := ?_
      known_iff := fun id => requestCancel_fst.trans exists_mem_ofCalls_iff
      inFlight_eq := length_operations calls }
  · rintro before id after rfl
    exact isRaised_context_iff before id after
  · intro s later hs
    rw [ofCalls_append]
    exact isRaised_callAll hsound hs
  · intro id
    have hnone := (isRaised_context_iff calls id []).not.mpr not_reached_nil
    exact Bool.eq_false_of_not_eq_true hnone

/-! ## Rows without cancellations -/

/-- The call registers or unregisters an operation. -/
def Call.books : Call → Bool
  | .register _ | .unregister _ => true
  | .requestCancel _ | .cancelAll => false

/-- After these calls, another one cancels every operation in flight that it reaches: those that
were registered and have not been unregistered since. -/
def Interrupts (calls : List Call) (c : Call) : Prop :=
  ∀ before id after, calls = before ++ .register id :: after → .unregister id ∉ after →
    c.Reaches id → (ofCalls (calls ++ [c])).isRaised (context before id).signal = true

/-- An id is not registered again while an operation is in flight under it. -/
def Single (calls : List Call) (id : String) : Prop :=
  ∀ before after, calls = before ++ .register id :: after → .unregister id ∉ after →
    .register id ∉ after

theorem not_reaches_of_books (h : c.books = true) : ¬ c.Reaches id := by
  cases c with
  | register | unregister => exact not_false
  | requestCancel | cancelAll => cases h

theorem reached_concat_iff (hlater : ∀ x ∈ later, x.books = true) (hc : c.Reaches id) :
    Reached id (later ++ [c]) ↔ Stands id later := by
  induction later with
  | nil => simp [reached_cons, hc, Stands]
  | cons x later ih =>
      obtain ⟨hx, hlater⟩ := List.forall_mem_cons.mp hlater
      rw [List.cons_append, reached_cons, stands_cons, ih hlater]
      simp [not_reaches_of_books hx]

/-- Which operations in flight a cancellation reaches where there was none before: the one that
was registered last under each id. -/
structure InterruptSpec (calls : List Call) : Prop where
  raised_iff : ∀ {before id after c}, calls = before ++ .register id :: after →
    .unregister id ∉ after → c.Reaches id →
      ((ofCalls (calls ++ [c])).isRaised (context before id).signal = true ↔
        .register id ∉ after)
  all_iff : Interrupts calls .cancelAll ↔ ∀ id, Single calls id
  one_iff : ∀ {id}, ((ofCalls calls).requestCancel id).1 = true →
    (Interrupts calls (.requestCancel id) ↔ Single calls id)

/-- Cancellations reach every operation in flight exactly if no id is registered again while an
operation is in flight under it. -/
theorem interrupts_iff (h : ∀ c ∈ calls, c.books = true) : InterruptSpec calls := by
  have hraised {before after : List Call} {id : String} {c : Call}
      (hsplit : calls = before ++ .register id :: after)
      (hafter : .unregister id ∉ after) (hc : c.Reaches id) :
      (ofCalls (calls ++ [c])).isRaised (context before id).signal = true ↔
        .register id ∉ after := by
    have hbooks : ∀ x ∈ after, x.books = true := fun x hx => h x (by simp [hsplit, hx])
    have hcalls : calls ++ [c] = before ++ .register id :: (after ++ [c]) := by simp [hsplit]
    rw [hcalls, isRaised_context_iff, reached_concat_iff hbooks hc, Stands]
    simp [hafter]
  refine ⟨hraised, ⟨?_, ?_⟩, fun {id} _ => ⟨?_, ?_⟩⟩
  · intro hall id before after hsplit hafter
    have hc := Call.reaches_cancelAll id
    exact (hraised hsplit hafter hc).mp (hall before id after hsplit hafter hc)
  · intro hsingle before id after hsplit hafter hc
    exact (hraised hsplit hafter hc).mpr (hsingle id before after hsplit hafter)
  · intro hone before after hsplit hafter
    have hc := Call.reaches_requestCancel id
    exact (hraised hsplit hafter hc).mp (hone before id after hsplit hafter hc)
  · intro hsingle before other after hsplit hafter hc
    have hid : id = other := hc
    subst hid
    exact (hraised hsplit hafter hc).mpr (hsingle before after hsplit hafter)

/-- A resize that is started again after it ended, and an attachment that is started twice. -/
def restarted : List Call :=
  [.register "resize", .register "attach", .unregister "resize", .register "resize",
    .register "attach"]

theorem interrupts_iff_restarted : (∀ c ∈ restarted, c.books = true) ∧
    ((ofCalls restarted).requestCancel "resize").1 = true ∧ InterruptSpec restarted := by
  have hbooks : ∀ c ∈ restarted, c.books = true := by decide
  exact ⟨hbooks, by decide, interrupts_iff hbooks⟩

/-- Two operations under one id. -/
def resizedTwice : List Call := [.register "resize", .register "resize"]

/-- The first of two operations under one id is not cancelled, although both are in flight. -/
theorem resizedTwice_not_interrupted : (∀ c ∈ resizedTwice, c.books = true) ∧
    ¬ Interrupts resizedTwice .cancelAll ∧
    ((ofCalls resizedTwice).requestCancel "resize").1 = true ∧
    ¬ Interrupts resizedTwice (.requestCancel "resize") := by
  have hfirst (c : Call) (hc : c.Reaches "resize") (h : Interrupts resizedTwice c) :
      (ofCalls (resizedTwice ++ [c])).isRaised (context [] "resize").signal = true :=
    h [] "resize" [.register "resize"] rfl (by decide) hc
  refine ⟨by decide, fun h => ?_, by decide, fun h => ?_⟩
  · exact absurd (hfirst .cancelAll trivial h) (by decide)
  · exact absurd (hfirst (.requestCancel "resize") rfl h) (by decide)

end Settle.Registry
