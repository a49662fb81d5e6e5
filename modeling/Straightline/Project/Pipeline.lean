import Straightline.Project.Path
import Straightline.Project.Settings
import Straightline.Project.Job

/-!
# Jobs on files

* `settingsFor` finds the settings that apply to a script.
* `emitFile`, `buildFile`, `runFile` and `checkFile` are the jobs on a script in a file.
-/

namespace Straightline

variable {m : Type → Type} [Monad m] [FileSystem m]

/-- The contents of a file as text. -/
def readText (path : String) : m (Except FileError String) := do
  match ← FileSystem.read path with
  | .error e => return .error e
  | .ok bytes =>
    match String.fromUTF8? bytes with
    | some text => return .ok text
    | none => return .error .notUtf8

/-! ### Settings -/

/-- The settings in a file. -/
def loadSettings (path : String) : Job m Settings := do
  let source ← Job.file (.settingsUnreadable path) (readText path)
  match Settings.ofSource? source with
  | none => throw (.settingsInvalid path)
  | some settings =>
    Job.note (.event (.settingsLoaded path))
    return settings

/-- The name of a settings file. -/
def settingsFile : String := "ssc.toml"

/-- The settings for a script: those of the given file, else those of the file beside the script,
    else the defaults. -/
def settingsFor (script : String) (explicit : Option String) : Job m Settings := do
  match explicit with
  | some path => loadSettings path
  | none =>
    let path := Path.join ((Path.parent? script).getD ".") settingsFile
    let found ← (FileSystem.isFile path : m Bool)
    if found then loadSettings path else return {}

/-- The options for a script. A policy that is given counts for more than that of the settings. -/
def optionsFor (script : String) (explicit : Option String) (reads : Option ReadPolicy) :
    Job m Options := do
  let options := (← settingsFor script explicit).compile
  return { options with reads := reads.getD options.reads }

/-! ### Scripts -/

/-- The text of a script. -/
def readSource (path : String) : Job m String :=
  Job.file (.sourceUnreadable path) (readText path)

/-- The text of the module of a script. -/
def emitFile (path : String) (options : Options) : Job m String := do
  emitScript (← readSource path) path options

/-- Where the module of a script is written if nothing else is said. -/
def defaultOutput (script : String) : String := Path.withExtension "ll" script

/-- Write the module of a script to a file. Nothing is written unless the script can be compiled. -/
def buildFile (path output : String) (options : Options) : Job m Unit := do
  let text ← emitFile path options
  Job.file (.outputUnwritable output) (FileSystem.write output text.toByteArray)
  Job.note (.event (.moduleWritten path output))

/-- Run a script. -/
def runFile (path : String) (options : Options) : Job m Execution := do
  runScript (← readSource path) path options

/-- Check that a script can be compiled. -/
def checkFile (path : String) (options : Options) : Job m Unit := do
  checkScript (← readSource path) path options

end Straightline
