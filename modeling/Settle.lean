import Settle.Main
import Settle.Supervisor
import Settle.Proofs.Retrier.Budget
import Settle.Proofs.Retrier.FirstCall
import Settle.Proofs.Signal
import Settle.Proofs.Reconciler.Signal
import Settle.Proofs.Reconciler.Replay
import Settle.Proofs.Reconciler.Outcome
import Settle.Proofs.Reconciler.Phases
import Settle.Proofs.Reconciler.Discipline
import Settle.Proofs.Retrier.Deadline
import Settle.Proofs.Retrier.Pace
import Settle.Proofs.Retrier.Schedule
import Settle.Proofs.Retrier.LargerBudget
import Settle.Proofs.Retrier.Late
import Settle.Proofs.Reconciler.Deadline
import Settle.Proofs.Limiter.Isolation
import Settle.Proofs.Limiter.Rate
import Settle.Proofs.Retrier.Values
import Settle.Proofs.Scenario.Rehearsal
import Settle.Proofs.Scenario.Script
import Settle.Proofs.Scenario.Report
import Settle.Proofs.Registry.Reach
import Settle.Proofs.Reconciler.Forecast
import Settle.Proofs.ErrorTable.Lookup
import Settle.Proofs.ErrorTable.Extension
import Settle.Proofs.Limiter.Refill
import Settle.Proofs.Number.Rounding
import Settle.Proofs.Number.Order
import Settle.Proofs.Limiter.Idle
import Settle.Proofs.Retrier.Turns
import Settle.Proofs.Number.Power
import Settle.Proofs.Retrier.Termination
import Settle.Proofs.Time
import Settle.Proofs.Settings.RoundTrip
import Settle.Proofs.Retrier.Backoff
import Settle.Proofs.Schedule.Rows
import Settle.Proofs.StatusTable
import Settle.Proofs.Limiter.Delays
import Settle.Proofs.Retrier.Log
import Settle.Proofs.CommandLine.Limits
import Settle.Proofs.Supervisor
