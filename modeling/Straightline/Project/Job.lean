import Straightline.Execution.Run
import Straightline.Ir.Text
import Straightline.Project.FileSystem
import Straightline.Script.Compile

/-!
# Jobs

A job works on files, reports what it does, and may fail.

* `Notice` is what a job reports and `Failure` why it fails; `Failure.message` words it.
* `Job` are jobs over a file system.
* `compileScript`, `emitScript`, `runScript` and `checkScript` are the jobs on the text of a script.
-/

namespace Straightline

/-- What a job reports on the way. -/
inductive Notice where
  | event (e : Event)
  | compiling (file : String)
  | finished (output : String)
  | checking (file : String)
  | noErrors
  deriving DecidableEq

/-- Why a job fails. -/
inductive Failure where
  | script (name : String) (error : ScriptError)
  | execution (name : String) (error : RunError)
  | sourceUnreadable (path : String) (cause : FileError)
  | settingsUnreadable (path : String) (cause : FileError)
  | settingsInvalid (path : String)
  | outputUnwritable (path : String) (cause : FileError)
  deriving DecidableEq

namespace Failure

/-- What failed. -/
def context : Failure → String
  | script _ error => error.diagnostic.message
  | execution name _ => "Failed to execute " ++ name
  | sourceUnreadable path _ => "Failed to read source file: " ++ path
  | settingsUnreadable path _ => "Failed to read config file: " ++ path
  | settingsInvalid path => "Failed to parse config file: " ++ path
  | outputUnwritable path _ => "Failed to write IR to " ++ path

/-- Why it failed, if there is more to say. -/
def cause? : Failure → Option String
  | script .. => none
  | execution _ error => some error.message
  | sourceUnreadable _ cause => some cause.message
  | settingsUnreadable _ cause => some cause.message
  | settingsInvalid _ => some "TOML parse error"
  | outputUnwritable _ cause => some cause.message

/-- What failed and why. -/
def message (f : Failure) : String :=
  match f.cause? with
  | none => f.context
  | some cause => f.context ++ ": " ++ cause

end Failure

/-- A job over a file system. What it reported before it failed counts. -/
abbrev Job (m : Type → Type) := ExceptT Failure (StateT (Array Notice) m)

variable {m : Type → Type} [Monad m]

/-- Report something. -/
def Job.note (n : Notice) : Job m Unit := modify fun notices : Array Notice => notices.push n

/-- Make a job of something that is done with files. -/
def Job.file {α : Type} (blame : FileError → Failure) (work : m (Except FileError α)) :
    Job m α := do
  match ← (work : m (Except FileError α)) with
  | .ok a => return a
  | .error e => throw (blame e)

/-! ### Jobs on the text of a script -/

/-- The module of a script. -/
def compileScript (source name : String) (options : Options) : Job m Module := do
  let (outcome, c) := compilation source options
  -- What was noted before an error is kept with it.
  c.log.forM fun e => Job.note (.event e)
  match outcome with
  | .ok () => return c.module
  | .error e => throw (.script name e)

/-- The text of the module of a script. -/
def emitScript (source name : String) (options : Options) : Job m String := do
  let text := (← compileScript source name options).text
  Job.note (.event (.moduleSerialized text.utf8ByteSize))
  return text

/-- Run a script. -/
def runScript (source name : String) (options : Options) : Job m Execution := do
  match (← compileScript source name options).run "main" with
  | .ok execution =>
    Job.note (.event (.entryReturned execution.exitCode))
    return execution
  | .error e => throw (.execution name e)

/-- Check that a script can be compiled. -/
def checkScript (source name : String) (options : Options) : Job m Unit := do
  let _ ← compileScript source name options

end Straightline
