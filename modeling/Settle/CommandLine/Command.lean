import Settle.CommandLine.Words
import Settle.Outlook
import Settle.Reconciler

/-!
# Commands

The program classifies an error code, lists the schedule of a profile, rehearses a scenario, or
shows the settings in effect.
-/

namespace Settle.CommandLine

/-- Which policy a schedule is for. -/
inductive Profile where
  | read
  | write
  | poll
  deriving DecidableEq, Repr

namespace Profile

def all : List Profile := [.read, .write, .poll]

def key : Profile → String
  | .read => "read"
  | .write => "write"
  | .poll => "poll"

def title : Profile → String
  | .read => "Read"
  | .write => "Write"
  | .poll => "Poll"

def policy (policies : Policies) : Profile → Policy
  | .read => policies.read
  | .write => policies.write
  | .poll => policies.poll

end Profile

inductive Command where
  | classify (code : String) (idempotent : Bool) (kind : CallKind)
  | schedule (profile : Profile) (count : Nat)
  | simulate (path : String)
  | config
  deriving DecidableEq, Repr

namespace Command

/-- Sets what may be set only once. -/
def once {α : Type} (old : Option α) (new : Option α) : Option (Option α) :=
  match old, new with
  | none, some v => some (some v)
  | _, _ => none

/-- A count of 64 bits, perhaps with a plus sign. -/
def count? (text : String) : Option Nat :=
  let digits := match text.toList with
    | '+' :: digits => digits
    | digits => digits
  if digits.isEmpty ∨ ¬digits.all Char.isDigit then none
  else
    let n := digits.foldl (fun n d => n * 10 + (d.toNat - '0'.toNat)) 0
    if n < Nat.pow 2 64 then some n else none

structure ClassifyDraft where
  code : Option String := none
  replay : Option Bool := none
  kind : Option CallKind := none

def classifyForm : Form ClassifyDraft where
  setter? name :=
    match name with
    | "non-idempotent" =>
      some (.flag fun d => do return { d with replay := ← once d.replay (some false) })
    | "mode" => some (.valued fun d v => do
      return { d with kind := ← once d.kind (CallKind.all.find? fun k => k.key = v) })
    | _ => none
  operand d v := do return { d with code := ← once d.code (some v) }

structure ScheduleDraft where
  profile : Option Profile := none
  count : Option Nat := none

def scheduleForm : Form ScheduleDraft where
  setter? name :=
    match name with
    | "profile" => some (.valued fun d v => do
      return { d with profile := ← once d.profile (Profile.all.find? fun p => p.key = v) })
    | "count" => some (.valued fun d v => do
      return { d with count := ← once d.count (count? v) })
    | _ => none
  operand _ _ := none

def simulateForm : Form (Option String) where
  setter? _ := none
  operand d v := once d (some v)

def configForm : Form Unit where
  setter? _ := none
  operand _ _ := none

/-- The command that some words make. -/
def parse : List String → Except Stop Command
  | "classify" :: words => do
    let d ← classifyForm.read {} words
    return .classify (← Form.orMisuse d.code) (d.replay.getD true) (d.kind.getD .write)
  | "schedule" :: words => do
    let d ← scheduleForm.read {} words
    return .schedule (d.profile.getD .write) (d.count.getD 10)
  | "simulate" :: words => do
    return .simulate (← Form.orMisuse (← simulateForm.read none words))
  | "config" :: words => do
    configForm.read () words
    return .config
  | ["help"] | ["help", "help"] | ["help", "classify"] | ["help", "schedule"]
  | ["help", "simulate"] | ["help", "config"] => .error .help
  | word :: _ => do
    configForm.read () [word]
    .error .misuse
  | [] => .error .misuse

end Command

end Settle.CommandLine
