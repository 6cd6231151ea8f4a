import Settle.CommandLine.Answer
import Settle.CommandLine.Usage

/-!
# The program

Finds the settings and the log, reads what the command asks for, and prints its answer. All
decisions are made by the commands themselves.
-/

namespace Settle.Program

open CommandLine

/-- A directory of the user: the one that an environment variable names, or one below the home
directory. -/
def directory (name fallback : String) : IO String := do
  match ← IO.getEnv name with
  | some path =>
    if path.startsWith "/" then return path
  | none => pure ()
  match ← IO.getEnv "HOME" with
  | some home => return home ++ fallback
  | none => throw (.userError "there is no home directory")

/-- The directory part of a path. -/
def parent (path : String) : String :=
  String.ofList ((path.toList.reverse.dropWhile (· ≠ '/')).drop 1).reverse

/-- The reason for which the file system refused. -/
def reason : IO.Error → String
  | .noFileOrDirectory .. => "No such file or directory (os error 2)"
  | .permissionDenied .. => "Permission denied (os error 13)"
  | .inappropriateType _ 21 _ => "Is a directory (os error 21)"
  | .inappropriateType .. => "Not a directory (os error 20)"
  | .invalidArgument _ 36 _ => "File name too long (os error 36)"
  | e => toString e

/-- The bytes of a file, or why there are none. -/
def contents (path : String) : IO (Except String (List UInt8)) := do
  try
    return .ok (← IO.FS.readBinFile path).toList
  catch e => return .error (reason e)

/-- Where log lines go. -/
structure Log where
  write : String → IO Unit

/-- A log at the end of a file, or on standard error if the file cannot be written. -/
def openLog : IO Log := do
  try
    let path := Settings.logPath (← directory "XDG_STATE_HOME" "/.local/state")
    IO.FS.createDirAll (parent path)
    let file ← IO.FS.Handle.mk path .append
    file.putStrLn ("INFO cloudrecon logging initialized at " ++ path)
    return ⟨file.putStrLn⟩
  catch e =>
    IO.eprintln ("WARN file logging unavailable, using stderr: " ++ reason e)
    return ⟨fun line => IO.eprintln line⟩

/-- One line for a log entry. -/
def logLine (entry : LogEntry) : String :=
  let fields := entry.fields.map fun (name, value) =>
    " " ++ name ++ "=" ++ match value with
      | .number n => toString n
      | .text s => s
  entry.level.text ++ " " ++ entry.message ++ String.join fields

/-- The settings at a path; a missing file is made. -/
def loadSettings (log : Log) (path : String) : IO (Except SettingsError Settings) := do
  match ← (IO.FS.readBinFile path).toBaseIO with
  | .ok bytes => return Settings.load (.ok bytes.toList)
  | .error (.noFileOrDirectory ..) =>
    let (settings, text) := Settings.loadOrCreate none
    IO.FS.createDirAll (parent path)
    IO.FS.writeFile path text
    log.write ("INFO created default config at " ++ path)
    return settings
  | .error e => return Settings.load (.error (reason e))

/-- Random shares between zero and one. -/
def shares (seed : Nat) (stage : Stage) (attempt : Nat) : Binary64 :=
  let stream := match stage with
    | .issue => 2 * attempt
    | .poll => 2 * attempt + 1
  let (n, _) := randNat (mkStdGen (seed + 7919 * stream)) 0 (Nat.pow 2 31)
  .ofQuotient false (n * Binary64.one) (Nat.pow 2 31)

def run (log : Log) (command : Command) : IO UInt32 := do
  let place := Settings.path (← directory "XDG_CONFIG_HOME" "/.config")
  let settings ← loadSettings log place
  let file ← match command with
    | .simulate path => contents path
    | _ => pure (.ok [])
  let seed ← IO.rand 0 (Nat.pow 2 31)
  let answer := command.answer { place, settings, file := fun _ => file, draw := shares seed }
  answer.trace.log.forM fun entry => log.write (logLine entry)
  IO.print answer.output
  if answer.error.isSome then IO.eprintln (answer.complaint place)
  return answer.exitCode.toUInt32

end Settle.Program

open Settle in
def main (args : List String) : IO UInt32 := do
  let log ← Program.openLog
  match CommandLine.Command.parse args with
  | .error .help =>
    IO.print CommandLine.usage
    return 0
  | .error .misuse =>
    IO.eprint CommandLine.usage
    return 2
  | .ok command =>
    try Program.run log command
    catch e =>
      IO.eprintln ("cloudrecon error: " ++ Program.reason e)
      return 1
