import Straightline.CommandLine.Arguments
import Straightline.Log.Filter
import Straightline.Project.Pipeline

/-!
# The command

* `perform` does the work that a command line asks for.
* `respond` answers a command line, and `Response.stderr` is what is shown of it beside the output.
-/

namespace Straightline

/-- What the command leaves behind. -/
structure Response where
  exitCode : UInt8
  stdout : String := ""
  notices : Array Notice := #[]
  filter : LogFilter := .ofRank 0
  /-- The last words, if the command failed. -/
  complaint : String := ""

/-- The name and the version of the command. -/
def versionText : String := "ssc 0.1.0\n"

/-- How the command is used. -/
def usageText : String :=
  "Usage: ssc [--uninit-reads <POLICY>] [--config <FILE>] [-v]... <build|emit|run|check> <FILE>\n"

variable {m : Type → Type} [Monad m] [FileSystem m]

/-- Do the work: the output and the exit code. -/
def perform (i : Invocation) : Job m (String × UInt8) := do
  let options ← optionsFor i.file i.config i.reads
  match i.action with
  | .build output =>
    let output := output.getD (defaultOutput i.file)
    Job.note (.compiling i.file)
    buildFile i.file output options
    Job.note (.finished output)
    return ("", 0)
  | .emit => return (← emitFile i.file options, 0)
  | .run =>
    let execution ← runFile i.file options
    Job.note (.event (.programFinished execution.exitCode))
    -- A process can only return the low byte of what the program returned.
    return (execution.stdout, execution.exitCode.toUInt32.toUInt8)
  | .check =>
    Job.note (.checking i.file)
    checkFile i.file options
    Job.note .noErrors
    return ("", 0)

/-- A text with each of its lines behind a margin. -/
def withMargin (margin text : String) : String :=
  String.join ((Text.splitAt '\n' text.toList).map fun l => margin ++ String.ofList l ++ "\n")

/-- An error in a script as it is shown. -/
def Diagnostic.report (d : Diagnostic) (name : String) : String :=
  d.code ++ "\n\n" ++ withMargin "  " d.message
    ++ withMargin "  " (name ++ ":" ++ Decimal.text d.span.start ++ "+" ++
      Decimal.text d.span.length ++ ": " ++ d.label)
    ++ match d.help with
      | some help => withMargin "  help: " help
      | none => ""

/-- The last words of a failed job. -/
def Failure.complaint : Failure → String
  | script name error => error.diagnostic.report name
  | f => errorReport ("error: " ++ f.message)

/-- Answer a command line. `log` is the filter that the environment asks for; one that is cut inside
    a character ends the command before it starts. -/
def respond (arguments : List String) (log : Option String) : m Response := do
  match readArguments arguments with
  | .error .version => return { exitCode := 0, stdout := versionText }
  | .error .help => return { exitCode := 0, stdout := usageText }
  | .error (.usage e) =>
    return { exitCode := 2, complaint := "error: " ++ e.message ++ "\n\n" ++ usageText }
  | .ok i =>
    match LogFilter.choose log i.verbosity with
    -- The arguments are fine by then, so the process stops without a usage text.
    | .error _ =>
      return { exitCode := 101, complaint := "a log filter cannot be cut inside a character\n" }
    | .ok filter =>
      let (outcome, notices) ←
        ((perform i).run.run #[] : m (Except Failure (String × UInt8) × Array Notice))
      match outcome with
      | .ok (stdout, exitCode) => return { exitCode, stdout, notices, filter }
      | .error f => return { exitCode := 1, notices, filter, complaint := f.complaint }

/-- What is shown of a notice. `elapsed` is the time that the command took, in seconds. -/
def Notice.text (filter : LogFilter) (elapsed : String) : Notice → String
  | event e => if filter.admits e then e.line ++ "\n" else ""
  | compiling file => "Compiling " ++ file ++ "\n"
  | finished output => "Finished " ++ output ++ " in " ++ elapsed ++ "s\n"
  | checking file => "Checking " ++ file ++ "\n"
  | noErrors => "Success: No errors found\n"

/-- What is shown beside the output. -/
def Response.stderr (r : Response) (elapsed : String) : String :=
  String.join (r.notices.toList.map (Notice.text r.filter elapsed)) ++ r.complaint

end Straightline
