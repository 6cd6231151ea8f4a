import Settle.Settings
import Settle.Proofs.Policy.Delay

/-! # Policies from settings

The times of a policy from settings were read from doubles and cut to a year. They are read back
from their own seconds, so the settings of such a policy give the policy again, and its delays are
neither off from the initial delay nor above the ceiling. -/

namespace Settle

variable {p : Policy}

/-- A normalized policy with times as settings can give them. -/
structure Policy.Configured (p : Policy) : Prop where
  budget : p.budget.Configured
  initial : p.initial.Configured
  ceiling : p.ceiling.Configured
  ordered : p.initial ≤ p.ceiling
  factor : p.factor.isFinite ∧ 1 ≤ p.factor

/-- What a policy is that goes through settings unchanged and keeps to its own times. -/
structure Policy.KeepsTimes (p : Policy) : Prop where
  settings : (RetrySettings.ofPolicy p).policy = p
  first : p.delay 1 = p.initial
  bounded : ∀ retry, p.delay retry ≤ p.ceiling

theorem Policy.configured_normalized {budget initial ceiling : Nanos} {factor : Binary64}
    {jitter : Bool} (hbudget : budget.Configured) (hinitial : initial.Configured)
    (hceiling : ceiling.Configured) :
    (normalized budget initial ceiling factor jitter).Configured where
  budget := hbudget
  initial := hinitial
  ceiling := hceiling.max hinitial
  ordered := Nat.le_max_right ceiling initial
  factor := normalized_factor budget initial ceiling factor jitter

namespace RetrySettings

theorem configured_policy (s : RetrySettings) : s.policy.Configured :=
  Policy.configured_normalized (Nanos.configured_ofConfigured s.budget)
    (Nanos.configured_ofConfigured s.initial) (Nanos.configured_ofConfigured s.ceiling)

theorem policy_ofPolicy (h : p.Configured) : (ofPolicy p).policy = p := by
  calc (ofPolicy p).policy
      = Policy.normalized (.ofConfigured p.budget.toSeconds) (.ofConfigured p.initial.toSeconds)
          (.ofConfigured p.ceiling.toSeconds) p.factor p.jitter := rfl
    _ = Policy.normalized p.budget p.initial p.ceiling p.factor p.jitter := by
        rw [h.budget.ofConfigured_toSeconds, h.initial.ofConfigured_toSeconds,
          h.ceiling.ofConfigured_toSeconds]
    _ = p := by
        rw [Policy.normalized, Nat.max_eq_left h.ordered, if_pos h.factor]

/-- Settings, whatever numbers they give, are those of the policy they give. -/
theorem policy_keepsTimes (s : RetrySettings) : s.policy.KeepsTimes := by
  have h := s.configured_policy
  exact {
    settings := policy_ofPolicy h
    first := Policy.delay_one h.initial.readsBack h.ceiling.readsBack h.ordered
    bounded := Policy.delay_le_ceiling h.factor.2 h.ceiling.readsBack }

end RetrySettings

end Settle
