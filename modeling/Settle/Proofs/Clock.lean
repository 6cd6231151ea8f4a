import Settle.Retrier

/-! # How a clock moves

A clock never goes back, and a wait ends early only at the instant of its signal. -/

namespace Settle

namespace Clock

/-- When the signal will be raised unless something raises it before; a signal that is overdue
comes at once. -/
def signal? (c : Clock) : Option Nanos := c.due.map (max c.now)

theorem now_le_signal {c : Clock} {t : Nanos} (h : c.signal? = some t) : c.now ≤ t := by
  obtain ⟨u, _, rfl⟩ := Option.map_eq_some_iff.mp h
  exact Nat.le_max_left _ _

/-! ## Waits -/

theorem wait_of_raised {c : Clock} (h : c.raised = true) (span : Nanos) : c.wait span = c := by
  simp [wait, h]

theorem now_le_wait (c : Clock) (span : Nanos) : c.now ≤ (c.wait span).now := by
  unfold wait
  split
  · exact Nat.le_refl _
  · split
    · split
      · exact Nat.le_max_left _ _
      · exact Nat.le_add_right _ _
    · exact Nat.le_add_right _ _

theorem wait_now_le (c : Clock) (span : Nanos) : (c.wait span).now ≤ c.now + span := by
  unfold wait
  split
  · exact Nat.le_add_right _ _
  · split
    · split
      · next h => exact Nat.max_le.mpr ⟨Nat.le_add_right _ _, h⟩
      · exact Nat.le_refl _
    · exact Nat.le_refl _

theorem wait_unraised {c : Clock} {span : Nanos} (h : (c.wait span).raised = false) :
    c.raised = false ∧ (c.wait span).now = c.now + span ∧
      (c.wait span).signal? = c.signal? := by
  unfold wait at h ⊢
  cases hc : c.raised with
  | true => simp [hc] at h
  | false =>
      cases hd : c.due with
      | none => simp [hd, signal?]
      | some t =>
          by_cases ht : t ≤ c.now + span
          · simp [hc, hd, ht] at h
          · simp only [Bool.false_eq_true, if_false, ht, signal?, hd, Option.map_some,
              Option.some.injEq, true_and]
            lia

theorem now_lt_signal {c : Clock} {span t : Nanos} (h : (c.wait span).raised = false)
    (ht : (c.wait span).signal? = some t) : (c.wait span).now < t := by
  unfold wait at h ht ⊢
  cases hc : c.raised with
  | true => simp [hc] at h
  | false =>
      cases hd : c.due with
      | none => simp [hd, hc, signal?] at ht
      | some u =>
          by_cases hu : u ≤ c.now + span
          · simp [hc, hd, hu] at h
          · simp only [hc, hd, hu, Bool.false_eq_true, if_false, signal?, Option.map_some,
              Option.some.injEq] at ht ⊢
            lia

theorem wait_raised {c : Clock} {span : Nanos} (hc : c.raised = false)
    (h : (c.wait span).raised = true) : c.signal? = some (c.wait span).now := by
  unfold wait at h ⊢
  cases hd : c.due with
  | none => simp [hc, hd] at h
  | some t =>
      by_cases ht : t ≤ c.now + span
      · simp [hc, ht, signal?, hd]
      · simp [hc, hd, ht] at h

theorem wait_of_signal {c : Clock} {span t : Nanos} (hc : c.raised = false)
    (ht : c.signal? = some t) (hle : t ≤ c.now + span) :
    (c.wait span).raised = true ∧ (c.wait span).now = t := by
  obtain ⟨u, hu, rfl⟩ := Option.map_eq_some_iff.mp ht
  have hdue : u ≤ c.now + span := Nat.le_trans (Nat.le_max_right _ _) hle
  simp [wait, hc, hu, hdue]

/-! ## Signals that are still to come -/

/-- The signal is not due yet. -/
def Ahead (c : Clock) : Prop := ∀ t, c.due = some t → c.now < t

@[simp] theorem wait_due (c : Clock) (span : Nanos) : (c.wait span).due = c.due := by
  unfold wait
  split
  · rfl
  · split
    · split <;> rfl
    · rfl

theorem ahead_wait {c : Clock} {span : Nanos} (h : (c.wait span).raised = false) :
    (c.wait span).Ahead := by
  intro t ht
  have hsignal : (c.wait span).signal? = some (max (c.wait span).now t) := by
    rw [signal?, ht, Option.map_some]
  have hlt := now_lt_signal h hsignal
  lia

theorem ahead_pass {c : Clock} {span : Nanos} (hspan : span ≠ 0)
    (h : (c.pass span).raised = false) : (c.pass span).Ahead := by
  intro t ht
  simp only [pass, hspan, if_false] at h ht ⊢
  simpa [ht] using (Bool.or_eq_false_iff.mp h).2

end Clock

/-! ## Calls -/

namespace Reply

variable {α : Type} (r : Reply α) (c : Clock)

@[simp] theorem finish_now : (r.finish c).now = c.now + r.took := by
  unfold finish Clock.pass Clock.raise
  by_cases h : r.took = 0 <;> cases r.interrupts <;> simp [h]

@[simp] theorem finish_due : (r.finish c).due = c.due := by
  unfold finish Clock.pass Clock.raise
  by_cases h : r.took = 0 <;> cases r.interrupts <;> simp [h]

variable {r c}

theorem finish_unraised (h : (r.finish c).raised = false) :
    c.raised = false ∧ r.interrupts = false ∧ (r.finish c).signal? = c.signal? := by
  cases hi : r.interrupts with
  | true => simp [finish, hi, Clock.raise] at h
  | false =>
      by_cases ht : r.took = 0
      · simp_all [finish, Clock.pass]
      · cases hd : c.due with
        | none => simp_all [finish, Clock.pass, Clock.signal?]
        | some t =>
            have hu : c.raised = false ∧ c.now + r.took < t := by
              simpa [finish, hi, Clock.pass, ht, hd] using h
            refine ⟨hu.1, rfl, ?_⟩
            simp only [Clock.signal?, finish_due, finish_now, hd, Option.map_some,
              Option.some.injEq]
            lia

/-- A signal that is raised during a call is due in its course or raised by the call itself. -/
theorem finish_raised (hc : c.raised = false) (h : (r.finish c).raised = true) :
    ∃ t, c.now ≤ t ∧ t ≤ c.now + r.took ∧ (∀ u, c.signal? = some u → t ≤ u) ∧
      (c.signal? = some t ∧ r.took ≠ 0 ∨ r.interrupts = true ∧ t = c.now + r.took) := by
  by_cases hs : ∃ u, c.signal? = some u ∧ r.took ≠ 0 ∧ u ≤ c.now + r.took
  · obtain ⟨u, hu, htook, hle⟩ := hs
    refine ⟨u, Clock.now_le_signal hu, hle, ?_, .inl ⟨hu, htook⟩⟩
    intro v hv
    exact Nat.le_of_eq (Option.some.inj (hu.symm.trans hv))
  · have hlater : ∀ u, c.signal? = some u → r.took = 0 ∨ c.now + r.took < u := by
      intro u hu
      by_cases htook : r.took = 0
      · exact .inl htook
      · exact .inr (Nat.lt_of_not_le fun hle => hs ⟨u, hu, htook, hle⟩)
    have hi : r.interrupts = true := by
      cases hi : r.interrupts with
      | true => rfl
      | false =>
          by_cases htook : r.took = 0
          · simp_all [finish, Clock.pass]
          · cases hd : c.due with
            | none => simp_all [finish, Clock.pass]
            | some t =>
                have hlt := (hlater (max c.now t) (by simp [Clock.signal?, hd])).resolve_left htook
                have hn : ¬ t ≤ c.now + r.took := by lia
                simp_all [finish, Clock.pass]
    refine ⟨c.now + r.took, Nat.le_add_right _ _, Nat.le_refl _, fun u hu => ?_, .inr ⟨hi, rfl⟩⟩
    rcases hlater u hu with htook | hlt
    · rw [htook]
      exact Clock.now_le_signal hu
    · exact Nat.le_of_lt hlt

theorem finish_of_interrupts (h : r.interrupts = true) : (r.finish c).raised = true := by
  simp [finish, h, Clock.raise]

theorem finish_of_signal {t : Nanos} (ht : c.signal? = some t) (htook : r.took ≠ 0)
    (hle : t ≤ c.now + r.took) : (r.finish c).raised = true := by
  obtain ⟨u, hu, rfl⟩ := Option.map_eq_some_iff.mp ht
  have hdue : u ≤ c.now + r.took := Nat.le_trans (Nat.le_max_right _ _) hle
  cases hi : r.interrupts <;> simp [finish, hi, Clock.pass, Clock.raise, htook, hu, hdue]

/-- A call that leaves the signal alone ends before the signal is due, or takes no time. -/
theorem ahead_finish (h : (r.finish c).raised = false) :
    (r.finish c).Ahead ∨ r.finish c = c := by
  obtain ⟨-, hi, -⟩ := finish_unraised h
  have hpass : r.finish c = c.pass r.took := by simp [finish, hi]
  rw [hpass] at h ⊢
  by_cases htook : r.took = 0
  · exact .inr (by simp [Clock.pass, htook])
  · exact .inl (Clock.ahead_pass htook h)

end Reply

end Settle
