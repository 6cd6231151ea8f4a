import Settle.CommandLine.Command
import Settle.Scenario.Reader
import Settle.Schedule
import Settle.Settings.Reader
import Settle.Text.Padding

/-!
# What commands answer

A command answers with lines of text and may end with an error, which makes it fail. Commands
see the settings in effect; only a rehearsal reads a further file.
-/

namespace Settle.CommandLine

/-- Why a command fails. -/
inductive CommandError where
  | settings (error : SettingsError)
  | scenario (path : String) (error : ScenarioError)
  /-- The rehearsed scenario ended without a value. -/
  | unsettled (failure : Failure)
  /-- The attempts of the rehearsed scenario cannot be counted. -/
  | endless
  deriving DecidableEq

/-- The whole message; `place` is the path of the settings. -/
def CommandError.message (place : String) : CommandError → String
  | .settings e => e.message place
  | .scenario path e => e.message (some path)
  | .unsettled f =>
    let source := match f.reason.source? with
      | some e => ": " ++ e.text
      | none => ""
    "scenario did not settle: " ++ f.text ++ source
  | .endless => "scenario does not end"

/-- The answer of a command, with the events of its run. -/
structure Answer where
  lines : List String := []
  error : Option CommandError := none
  trace : Trace := []

namespace Answer

def output (a : Answer) : String := String.join (a.lines.map (· ++ "\n"))

def complaint (place : String) (a : Answer) : String :=
  match a.error with
  | some e => "cloudrecon error: " ++ e.message place
  | none => ""

def exitCode (a : Answer) : UInt8 := if a.error.isSome then 1 else 0

end Answer

def labelled (name value : String) : String := padRight 12 (name ++ ":") ++ " " ++ value

def truth (b : Bool) : String := if b then "true" else "false"

/-! ## Classification -/

def className : Option CodeClass → String
  | some c => c.text
  | none => "unlisted (fatal)"

/-- How an error code is classified and what becomes of it. -/
def classification (s : Settings) (code : String) (idempotent : Bool) (kind : CallKind) :
    List String :=
  let errors := ErrorTable.configured s.errorCodes
  let op : Operation := { action := "classify", idempotent }
  let e : RemoteError := { code, message := "", requestId := none }
  [labelled "code" code,
   labelled "class" (className (errors.lookup code)),
   labelled "idempotent" (truth idempotent),
   labelled "verdict" (errors.judge op e).text,
   labelled ("as " ++ kind.key) (errors.outlook op kind e).text]

/-! ## Schedules -/

def rowLine (row : ScheduleRow) : String :=
  "  " ++ padLeft 5 (toString row.retry) ++ "  " ++ padLeft 10 row.delay.text ++ "  " ++
    padLeft 12 row.total.text ++ (if row.within then "" else "  (past budget)")

/-- The policy of a profile and the rows of its schedule. -/
def scheduleLines (s : Settings) (profile : Profile) (count : Nat) : List String :=
  let p := profile.policy s.policies
  ["profile " ++ profile.title ++ ": budget " ++ p.budget.text ++ ", initial " ++
      p.initial.text ++ ", max " ++ p.ceiling.text ++ ", x" ++ p.factor.text ++ ", jitter " ++
      (if p.jitter then "on (50-100%)" else "off"),
    "  Retry       Delay    Cumulative",
    "  -----  ----------  ------------"] ++ (p.rows count).map rowLine

/-! ## Rehearsals -/

def outcomeText : Except Failure (Option String) → String
  | .ok (some status) => "ok (" ++ status ++ ")"
  | .ok none => "ok"
  | .error f => f.text

/-- What a rehearsal showed; poll calls are counted where the pattern polls. -/
def reportLines (r : Report) : List String :=
  [labelled "mode" r.pattern.title, labelled "issue calls" (toString r.issueCalls)] ++
  (if r.pattern.polls then [labelled "poll calls" (toString r.pollCalls)] else []) ++
  [labelled "elapsed" r.elapsed.text, labelled "phase" r.phase.text,
   labelled "result" (outcomeText r.outcome)]

/-- Rehearses the scenario in a file that was read or could not be. -/
def simulation (s : Settings) (draw : Stage → Nat → Binary64) (path : String)
    (file : Except String (List UInt8)) : Answer :=
  match Scenario.load file with
  | .error e => { error := some (.scenario path e) }
  | .ok (scenario, events) =>
    match scenario.rehearse { s.reconciler with draw } ⟨{}, []⟩ with
    | none => { error := some .endless, trace := events }
    | some (report, _, more) =>
      { lines := reportLines report
        error := match report.outcome with
          | .ok _ => none
          | .error f => some (.unsettled f)
        trace := events ++ more }

/-! ## Settings -/

def policyLine (name : String) (configured : Bool) (p : Policy) : String :=
  "  " ++ padRight 6 name ++ " budget " ++ padLeft 8 p.budget.text ++ "  initial " ++
    padLeft 8 p.initial.text ++ "  max " ++ padLeft 8 p.ceiling.text ++ "  x" ++
    padRight 4 p.factor.text ++ " jitter " ++ padRight 5 (truth p.jitter) ++ " " ++
    (if configured then "(config)" else "(default)")

/-- A rate as it is shown; `none` where it shows as unlimited. -/
def shownRate? (rate : Binary64) : Option Binary64 := if 0 < rate then some rate else none

def standardRateLine (rate : Binary64) : String :=
  match shownRate? rate with
  | some rate => "  default " ++ rate.text ++ "/s per action"
  | none => "  default unlimited"

def actionRateLine (action : String) (rate : Binary64) : String :=
  "  " ++ padRight 32 action ++ " " ++ rate.text ++ "/s"

def codesLine (name : String) (codes : List String) : String :=
  "  " ++ padRight 10 name ++ " " ++
    (if codes.isEmpty then "-" else String.intercalate ", " codes)

/-- Where the settings are and what is in effect. -/
def settingsLines (place : String) (s : Settings) : List String :=
  let policies := s.policies
  let codes := s.errorCodes
  ["config file: " ++ place,
   "retry budgets:",
   policyLine "read" s.readRetry.isSome policies.read,
   policyLine "write" s.writeRetry.isSome policies.write,
   policyLine "poll" s.pollRetry.isSome policies.poll,
   "rate limit:",
   standardRateLine s.rates.standard] ++
  s.rates.actions.map (fun (action, rate) => actionRateLine action rate) ++
  ["extra error codes:",
   codesLine "transient" codes.transient,
   codesLine "transport" codes.transport,
   codesLine "absent" codes.absent,
   codesLine "fatal" codes.fatal]

/-! ## Commands -/

/-- What a command meets: the place of the settings, the settings or why there are none, the
files that can be read, and the random shares of the jitter. -/
structure Surroundings where
  place : String
  settings : Except SettingsError Settings
  file : String → Except String (List UInt8)
  draw : Stage → Nat → Binary64 := fun _ _ => 1

def Command.answer (around : Surroundings) (command : Command) : Answer :=
  match around.settings with
  | .error e => { error := some (.settings e) }
  | .ok s =>
    match command with
    | .classify code idempotent kind => { lines := classification s code idempotent kind }
    | .schedule profile count => { lines := scheduleLines s profile count }
    | .simulate path => simulation s around.draw path (around.file path)
    | .config => { lines := settingsLines around.place s }

end Settle.CommandLine
