import Settle.Settings
import Settle.Toml.Decode
import Settle.Toml.Reader

/-!
# Reading settings

Settings are a TOML document with a section for each retry policy, one for the rates of calls
and one for error codes. Sections may be missing; a retry section names all its fields.
-/

namespace Settle

/-- Why there are no settings. -/
inductive SettingsError where
  /-- The file could not be read, for a reason of the file system. -/
  | unreadable (reason : String)
  | malformed
  | mismatch (mismatch : Mismatch)
  deriving DecidableEq

namespace SettingsError

/-- What was being done with the file at a path when the error arose. -/
def activity (path : String) : SettingsError → String
  | .unreadable _ => "read config " ++ path
  | .malformed | .mismatch _ => "parse config " ++ path

def detail : SettingsError → String
  | .unreadable reason => reason
  | .malformed => "invalid TOML"
  | .mismatch m => m.message

def message (path : String) (e : SettingsError) : String := e.activity path ++ ": " ++ e.detail

end SettingsError

open Toml

/-- A retry section whose fields are not all known yet. -/
structure RetrySettings.Draft where
  budget : Option Binary64 := none
  initial : Option Binary64 := none
  ceiling : Option Binary64 := none
  factor : Option Binary64 := none
  jitter : Option Bool := none

def RetrySettings.record : Record RetrySettings.Draft RetrySettings where
  name := "RetryConfig"
  fields := ["max_elapsed_secs", "backoff_initial_secs", "backoff_max_secs",
    "backoff_multiplier", "jitter"]
  start := {}
  add := fun d (key, v) => do
    match key with
    | "max_elapsed_secs" => return { d with budget := some (← v.toFloat) }
    | "backoff_initial_secs" => return { d with initial := some (← v.toFloat) }
    | "backoff_max_secs" => return { d with ceiling := some (← v.toFloat) }
    | "backoff_multiplier" => return { d with factor := some (← v.toFloat) }
    | "jitter" => return { d with jitter := some (← v.toBool) }
    | _ => return d
  finish := fun d => do
    return {
      budget := ← Record.required "max_elapsed_secs" d.budget
      initial := ← Record.required "backoff_initial_secs" d.initial
      ceiling := ← Record.required "backoff_max_secs" d.ceiling
      factor := ← Record.required "backoff_multiplier" d.factor
      jitter := ← Record.required "jitter" d.jitter }

/-- A section of rates whose standard rate may not be known yet. -/
structure RateSettings.Draft where
  standard : Option Binary64 := none
  actions : List (String × Binary64) := []

def RateSettings.record : Record RateSettings.Draft RateSettings where
  name := "RateLimitConfig"
  fields := ["default_per_sec", "actions"]
  start := {}
  add := fun d (key, v) => do
    match key with
    | "default_per_sec" => return { d with standard := some (← v.toFloat) }
    | "actions" => return { d with actions := ← v.toMap Value.toFloat }
    | _ => return d
  finish := fun d => do
    return ⟨← Record.required "default_per_sec" d.standard, d.actions⟩

def CodeLists.record : Record CodeLists CodeLists where
  name := "ErrorCodesConfig"
  fields := ["transient", "transport", "absent", "fatal"]
  start := {}
  add := fun d (key, v) => do
    match key with
    | "transient" => return { d with transient := ← v.toList Value.toText }
    | "transport" => return { d with transport := ← v.toList Value.toText }
    | "absent" => return { d with absent := ← v.toList Value.toText }
    | "fatal" => return { d with fatal := ← v.toList Value.toText }
    | _ => return d
  finish := .ok

namespace Settings

def record : Record Settings Settings where
  name := "Settings"
  fields := ["read_retry", "write_retry", "poll_retry", "rate_limit", "error_codes"]
  start := {}
  add := fun d (key, v) => do
    match key with
    | "read_retry" => return { d with readRetry := some (← RetrySettings.record.ofValue v) }
    | "write_retry" => return { d with writeRetry := some (← RetrySettings.record.ofValue v) }
    | "poll_retry" => return { d with pollRetry := some (← RetrySettings.record.ofValue v) }
    | "rate_limit" => return { d with rates := ← RateSettings.record.ofValue v }
    | "error_codes" => return { d with errorCodes := ← CodeLists.record.ofValue v }
    | _ => return d
  finish := .ok

/-- The settings in a document. -/
def parse (text : String) : Except SettingsError Settings :=
  match Toml.parse text with
  | none => .error .malformed
  | some entries => (record.ofEntries entries).mapError .mismatch

/-- Settings from a file that was read or could not be. -/
def load (file : Except String (List UInt8)) : Except SettingsError Settings :=
  match file with
  | .error reason => .error (.unreadable reason)
  | .ok bytes =>
    match String.fromUTF8? ⟨bytes.toArray⟩ with
    | some text => parse text
    | none => .error (.unreadable "stream did not contain valid UTF-8")

/-- The place of the settings in the directory of settings. -/
def path (directory : String) : String := directory ++ "/cloudrecon/config.toml"

/-- The place of the log in the directory of states. -/
def logPath (directory : String) : String := directory ++ "/cloudrecon/cloudrecon.log"

/-- The document that is written where there is none yet. -/
def initialText : String :=
  "[rate_limit]\ndefault_per_sec = 20.0\n\n[rate_limit.actions]\n\n[error_codes]\n" ++
  "transient = []\ntransport = []\nabsent = []\nfatal = []\n"

/-- The settings of a file that may not exist, and the text of the file afterwards: a missing
one is made, and settings without a file are the built-in ones. -/
def loadOrCreate : Option String → Except SettingsError Settings × String
  | none => (.ok {}, initialText)
  | some text => (parse text, text)

end Settings

end Settle
