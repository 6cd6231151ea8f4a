import Settle.Limiter
import Settle.Reconciler

/-!
# Settings

Settings give time budgets in seconds as doubles, rates of calls and further error codes. The
policies, the limiter and the error table in effect are derived from them; what is missing has
its built-in value.
-/

namespace Settle

/-- A retry policy as it is configured, in seconds. -/
structure RetrySettings where
  budget : Binary64
  initial : Binary64
  ceiling : Binary64
  factor : Binary64
  jitter : Bool
  deriving DecidableEq

namespace RetrySettings

def ofPolicy (p : Policy) : RetrySettings where
  budget := p.budget.toSeconds
  initial := p.initial.toSeconds
  ceiling := p.ceiling.toSeconds
  factor := p.factor
  jitter := p.jitter

/-- The policy in effect; times are cut to a year. -/
def policy (s : RetrySettings) : Policy :=
  .normalized (.ofConfigured s.budget) (.ofConfigured s.initial) (.ofConfigured s.ceiling)
    s.factor s.jitter

end RetrySettings

/-- Rates of calls per second; the actions stand in the order of their names. -/
structure RateSettings where
  standard : Binary64 := Limiter.standardRate
  actions : List (String × Binary64) := []
  deriving DecidableEq

def RateSettings.limiter (s : RateSettings) : Limiter :=
  (Limiter.ofRate s.standard).withLimits s.actions

structure Settings where
  readRetry : Option RetrySettings := none
  writeRetry : Option RetrySettings := none
  pollRetry : Option RetrySettings := none
  rates : RateSettings := {}
  errorCodes : CodeLists := {}
  deriving DecidableEq

namespace Settings

/-- The policies in effect. -/
def policies (s : Settings) : Policies where
  read := (s.readRetry.map RetrySettings.policy).getD .read
  write := (s.writeRetry.map RetrySettings.policy).getD .write
  poll := (s.pollRetry.map RetrySettings.policy).getD .poll

/-- A reconciler with the limiter, the error table and the policies of the settings. -/
def reconciler (s : Settings) : Reconciler Buckets where
  gate := s.rates.limiter.gate
  errors := .configured s.errorCodes
  policies := s.policies

end Settings

end Settle
