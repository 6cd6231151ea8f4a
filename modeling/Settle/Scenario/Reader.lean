import Settle.Json.Reader
import Settle.Scenario
import Settle.Text.Blank

/-!
# Reading scenarios

A scenario is a JSON object of its fields, or an array of them in order. Fields that are not
known are skipped; an action must be named, and a time budget must not be negative.
-/

namespace Settle

/-- What a well-formed scenario may still have wrong. -/
inductive ScenarioFault where
  | blankAction
  | badBudget (seconds : Binary64)
  deriving DecidableEq

def ScenarioFault.message : ScenarioFault → String
  | .blankAction => "scenario action must not be empty"
  | .badBudget seconds =>
    "max_elapsed_secs must be a non-negative number, got " ++ seconds.text

/-- Why there is no scenario. -/
inductive ScenarioError where
  /-- The file could not be read, for a reason of the file system. -/
  | unreadable (reason : String)
  | unparsable (error : JsonError)
  | invalid (fault : ScenarioFault)
  deriving DecidableEq

namespace ScenarioError

/-- What was being done when the error arose, with the path of the file if there is one. -/
def activity (path : Option String) (e : ScenarioError) : String :=
  let of := match path with
    | some p => ": " ++ p
    | none => ""
  match e with
  | .unreadable _ => "read scenario file" ++ of
  | .unparsable _ => "parse scenario JSON" ++ of
  | .invalid _ => "invalid scenario" ++ of

def detail : ScenarioError → String
  | .unreadable reason => reason
  | .unparsable error => error.message
  | .invalid fault => fault.message

/-- The whole message; a scenario that came from no file is not named in it. -/
def message (path : Option String) (e : ScenarioError) : String :=
  match e, path with
  | .invalid fault, none => fault.message
  | _, _ => e.activity path ++ ": " ++ e.detail

end ScenarioError

namespace Scenario

open Json

/-- A scenario whose fields are not all known yet. -/
structure Draft where
  pattern : Option Pattern := none
  action : Option String := none
  pollAction : Option (Option String) := none
  idempotent : Option Bool := none
  issue : Option (List ScriptStep) := none
  poll : Option (List ScriptStep) := none
  pending : Option (List String) := none
  ready : Option (List String) := none
  budget : Option (Option Binary64) := none

/-- The scenario of a draft with the given action. -/
def Draft.scenario (d : Draft) (action : String) : Scenario where
  pattern := d.pattern.getD .mutateThenPoll
  action := action
  pollAction := d.pollAction.getD none
  idempotent := d.idempotent.getD true
  issue := d.issue.getD []
  poll := d.poll.getD []
  pending := d.pending.getD []
  ready := d.ready.getD []
  budget := d.budget.getD none

def readPattern : Reader Pattern :=
  readVariant (Pattern.all.map Pattern.key) fun name hasValue => do
    if hasValue then readNull
    return (Pattern.all.find? fun p => p.key = name).getD .mutateThenPoll

def readStep : Reader ScriptStep :=
  readVariant ["ok", "error", "status"] fun name hasValue => do
    match name, hasValue with
    | "error", true => return .error (← readString "a string")
    | "status", true => return .status (← readString "a string")
    | "error", false | "status", false =>
      refuse (.invalidType .unitVariant "newtype variant")
    | _, true =>
      readNull
      return .ok
    | _, false => return .ok

def readText : Reader String := readString "a string"

/-- The value of a field that may stand only once. -/
def once {α : Type} (name : String) (old : Option α) (value : Reader α) :
    Reader (Option α) := do
  if old.isSome then refuse (.duplicateField name)
  colon
  some <$> value

def readField (key : String) (d : Draft) : Reader Draft := do
  match key with
  | "mode" => return { d with pattern := ← once key d.pattern readPattern }
  | "action" => return { d with action := ← once key d.action readText }
  | "poll_action" =>
    return { d with pollAction := ← once key d.pollAction (readOption readText) }
  | "idempotent" => return { d with idempotent := ← once key d.idempotent readBool }
  | "issue" => return { d with issue := ← once key d.issue (readList readStep) }
  | "poll" => return { d with poll := ← once key d.poll (readList readStep) }
  | "pending" => return { d with pending := ← once key d.pending (readList readText) }
  | "ready" => return { d with ready := ← once key d.ready (readList readText) }
  | "max_elapsed_secs" =>
    return { d with budget := ← once key d.budget (readOption readFloat) }
  | _ =>
    colon
    skipValue
    return d

/-- An item of an array that may have ended. -/
def item {α : Type} (first : Bool) (value : Reader α) : Reader (Option α) := do
  if ← nextItem first then some <$> value else return none

/-- The fields in order, after the opening bracket of an array. -/
def readItems : Reader Scenario := do
  let pattern ← item true readPattern
  let some action ← item false readText
    | refuse (.invalidLength 1 "struct Scenario with 9 elements")
  let pollAction ← item false (readOption readText)
  let idempotent ← item false readBool
  let issue ← item false (readList readStep)
  let poll ← item false (readList readStep)
  let pending ← item false (readList readText)
  let ready ← item false (readList readText)
  let budget ← item false (readOption readFloat)
  endItems
  let d : Draft := { pattern, pollAction, idempotent, issue, poll, pending, ready, budget }
  return d.scenario action

def read : Reader Scenario := do
  match ← peekToken? with
  | none => truncated
  | some '[' =>
    skip
    readItems
  | some '{' =>
    skip
    let d ← readFields readField {}
    match d.action with
    | some action => return d.scenario action
    | none => refuse (.missingField "action")
  | some _ => unexpected "struct Scenario"

/-- The fault of a scenario that cannot be run. -/
def fault? (s : Scenario) : Option ScenarioFault :=
  if isBlankText s.action then some .blankAction
  else
    match s.budget with
    | some seconds =>
      if ¬seconds.isFinite ∨ seconds < 0 then some (.badBudget seconds) else none
    | none => none

/-- A scenario from a document, with the events of looking at it. -/
def parse (bytes : List UInt8) : Except ScenarioError (Scenario × Trace) :=
  match readDocument read bytes with
  | .error e => .error (.unparsable e)
  | .ok s =>
    match s.fault? with
    | some fault => .error (.invalid fault)
    | none =>
      .ok (s, if ¬s.pattern.polls ∧ ¬s.poll.isEmpty then [.pollStepsIgnored s.pattern] else [])

/-- A scenario from a file that was read or could not be. -/
def load (file : Except String (List UInt8)) : Except ScenarioError (Scenario × Trace) :=
  match file with
  | .error reason => .error (.unreadable reason)
  | .ok bytes => parse bytes

end Scenario

end Settle
