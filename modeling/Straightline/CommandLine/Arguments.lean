import Straightline.Emission.Compilation

/-!
# Arguments

A command line is options, a subcommand, and the options and the file of the subcommand. Most
options may stand on either side of the subcommand; what stands behind it counts.

* `Invocation` is what a command line asks for.
* `readArguments` reads a command line.
-/

namespace Straightline

/-- What to do with a script. -/
inductive Action where
  | build (output : Option String)
  | emit
  | run
  | check
  deriving DecidableEq

/-- A command line that asks for work. -/
structure Invocation where
  action : Action
  file : String
  reads : Option ReadPolicy
  config : Option String
  verbosity : Nat
  deriving DecidableEq

/-- The names of the subcommands. -/
inductive Verb where
  | build | emit | run | check
  deriving DecidableEq

def Verb.ofText? : String → Option Verb
  | "build" => some build
  | "emit" => some emit
  | "run" => some run
  | "check" => some check
  | _ => none

/-- What help can be asked for: the command as a whole, a subcommand, or asking for help itself. -/
inductive Topic where
  | command
  | verb (v : Verb)
  | help
  deriving DecidableEq

/-- The topic that a name stands for within another. -/
def Topic.named? (name : String) : Topic → Option Topic
  | command =>
    match Verb.ofText? name with
    | some v => some (verb v)
    | none => if name = "help" then some help else none
  | _ => none

/-- The options. -/
inductive Flag where
  | reads | config | verbose | output | help | version
  deriving DecidableEq

namespace Flag

/-- The option by its long name. -/
def ofLong? : String → Option Flag
  | "uninit-reads" => some reads
  | "config" => some config
  | "verbose" => some verbose
  | "output" => some output
  | "help" => some help
  | "version" => some version
  | _ => none

/-- The option by its letter. -/
def ofShort? : Char → Option Flag
  | 'v' => some verbose
  | 'o' => some output
  | 'h' => some help
  | 'V' => some version
  | _ => none

/-- The long name of an option, as messages give it. -/
def text : Flag → String
  | reads => "--uninit-reads"
  | config => "--config"
  | verbose => "--verbose"
  | output => "--output"
  | help => "--help"
  | version => "--version"

def takesValue : Flag → Bool
  | reads | config | output => true
  | _ => false

/-- Whether an option may stand behind a subcommand, or without one. -/
def isAllowed (verb : Option Verb) : Flag → Bool
  | output => verb = some .build
  | version => verb = none
  | _ => true

end Flag

/-- What is wrong with a command line. -/
inductive UsageError where
  | unexpected (argument : String)
  | missingValue (flag : Flag)
  | unneededValue (flag : Flag)
  | invalidValue (value : String)
  | repeated (flag : Flag)
  | missingSubcommand
  | missingFile
  deriving DecidableEq

/-- The wording of an error. -/
def UsageError.message : UsageError → String
  | unexpected argument => "unexpected argument '" ++ argument ++ "' found"
  | missingValue flag => "a value is required for '" ++ flag.text ++ "' but none was supplied"
  | unneededValue flag => "no value is allowed for '" ++ flag.text ++ "'"
  | invalidValue value => "invalid value '" ++ value ++ "'"
  | repeated flag => "the argument '" ++ flag.text ++ "' cannot be used multiple times"
  | missingSubcommand => "a subcommand is required but one was not provided"
  | missingFile => "the file was not provided"

/-- Why reading a command line stops before it asks for work. -/
inductive Stop where
  | usage (error : UsageError)
  | help
  | version
  deriving DecidableEq

/-- What is given on one side of the subcommand. -/
structure Given where
  reads : Option ReadPolicy := none
  config : Option String := none
  output : Option String := none
  verbosity : Nat := 0
  deriving DecidableEq

namespace Given

/-- A path, which must not be empty. -/
def path (value : String) : Except Stop String :=
  if value = "" then .error (.usage (.invalidValue value)) else .ok value

/-- Give an option its value, once. -/
def assign (g : Given) (flag : Flag) (value : String) : Except Stop Given :=
  match flag with
  | .reads =>
    match g.reads, ReadPolicy.ofText? value with
    -- A second value is refused before it is looked at.
    | some _, _ => .error (.usage (.repeated flag))
    | none, some policy => .ok { g with reads := some policy }
    | none, none => .error (.usage (.invalidValue value))
  | .config => do
    if g.config.isSome then .error (.usage (.repeated flag))
    else return { g with config := some (← path value) }
  | .output => do
    if g.output.isSome then .error (.usage (.repeated flag))
    else return { g with output := some (← path value) }
  | _ => .error (.usage (.unneededValue flag))

/-- Note an option without a value. -/
def mark (g : Given) : Flag → Except Stop Given
  | .verbose => .ok { g with verbosity := g.verbosity + 1 }
  | .help => .error .help
  | .version => .error .version
  | flag => .error (.usage (.missingValue flag))

/-- What is given on both sides together. -/
def merge (front back : Given) : Given where
  reads := back.reads <|> front.reads
  config := back.config <|> front.config
  output := back.output
  verbosity := if back.verbosity = 0 then front.verbosity else back.verbosity

end Given

/-- A command line that is read in part. -/
structure Progress where
  verb : Option Verb := none
  /-- What is given in front of the subcommand. -/
  front : Given := {}
  /-- What is given behind the subcommand, or so far. -/
  here : Given := {}
  file : Option String := none
  /-- The option that waits for its value. -/
  pending : Option Flag := none
  /-- Whether no options are read any more. -/
  plain : Bool := false
  /-- What help is asked for, if the subcommand is the one that gives help. -/
  topic : Option Topic := none

namespace Progress

/-- An option by name, if it may stand here. -/
def allowed (p : Progress) (argument : String) (flag : Option Flag) : Except Stop Flag :=
  match flag with
  | some flag =>
    if flag.isAllowed p.verb then .ok flag else .error (.usage (.unexpected argument))
  | none => .error (.usage (.unexpected argument))

/-- Read an option by its long name, behind the dashes. -/
def readLong (p : Progress) (argument : String) (cs : List Char) : Except Stop Progress := do
  let name := cs.takeWhile (· ≠ '=')
  let flag ← p.allowed argument (Flag.ofLong? (String.ofList name))
  match flag.takesValue, cs.dropWhile (· ≠ '=') with
  | true, _ :: value => return { p with here := ← p.here.assign flag (String.ofList value) }
  | true, [] => return { p with pending := some flag }
  | false, _ :: _ => .error (.usage (.unneededValue flag))
  | false, [] => return { p with here := ← p.here.mark flag }

/-- Read options by their letters, behind the dash. What follows the letter of an option with a
    value is the value, with an equals sign or without. -/
def readShort (p : Progress) (argument : String) : List Char → Except Stop Progress
  | [] => .ok p
  | c :: cs => do
    let flag ← p.allowed argument (Flag.ofShort? c)
    if flag.takesValue then
      match cs with
      | [] => return { p with pending := some flag }
      -- Both `-ofile` and `-o=file` give the value at once.
      | '=' :: value => return { p with here := ← p.here.assign flag (String.ofList value) }
      | value => return { p with here := ← p.here.assign flag (String.ofList value) }
    else readShort { p with here := ← p.here.mark flag } argument cs

/-- Read the file of a subcommand. -/
def readFile (p : Progress) (argument : String) : Except Stop Progress :=
  match p.verb, p.file with
  | some _, none => do return { p with file := some (← Given.path argument) }
  | _, _ => .error (.usage (.unexpected argument))

/-- Read an argument that is no option: a value, a subcommand or a file. -/
def readWord (p : Progress) (argument : String) : Except Stop Progress :=
  match p.pending with
  | some flag => do return { p with here := ← p.here.assign flag argument, pending := none }
  | none =>
    match p.verb, Verb.ofText? argument with
    -- What was given in front of the command is put aside, and counting starts again.
    | none, some verb => .ok { verb := some verb, front := p.here }
    | none, none =>
      if argument = "help" then .ok { p with topic := some .command }
      else .error (.usage (.unexpected argument))
    | some _, _ => p.readFile argument

/-- Read the name of something that help is asked for. -/
def readTopic (p : Progress) (topic : Topic) (argument : String) : Except Stop Progress :=
  match topic.named? argument with
  | some inner => .ok { p with topic := some inner }
  | none => .error (.usage (.unexpected argument))

/-- Read an argument where options may stand. -/
def readOpen (p : Progress) (argument : String) : Except Stop Progress :=
  match argument.toList, p.pending with
  -- A single `-` can be a value, but nothing longer that starts with it.
  | '-' :: _ :: _, some flag => .error (.usage (.missingValue flag))
  | ['-', '-'], none => .ok { p with plain := true }
  | '-' :: '-' :: cs, none => p.readLong argument cs
  | '-' :: c :: cs, none => p.readShort argument (c :: cs)
  | _, _ => p.readWord argument

/-- Read an argument. Where help is asked for, every argument names a topic. -/
def read (p : Progress) (argument : String) : Except Stop Progress :=
  match p.topic with
  | some topic => p.readTopic topic argument
  | none => if p.plain then p.readFile argument else p.readOpen argument

/-- What a command line asks for, when all of it is read. -/
def finish (p : Progress) : Except Stop Invocation :=
  match p.topic, p.pending, p.verb, p.file with
  -- The help that was asked for comes before what is missing.
  | some _, _, _, _ => .error .help
  | none, some flag, _, _ => .error (.usage (.missingValue flag))
  | none, none, none, _ => .error (.usage .missingSubcommand)
  | none, none, some _, none => .error (.usage .missingFile)
  | none, none, some verb, some file =>
    let given := p.front.merge p.here
    let action := match verb with
      | .build => Action.build given.output
      | .emit => .emit
      | .run => .run
      | .check => .check
    .ok { action, file, reads := given.reads, config := given.config, verbosity := given.verbosity }

end Progress

/-- What a command line asks for. -/
def readArguments (arguments : List String) : Except Stop Invocation := do
  let p ← arguments.foldlM Progress.read {}
  p.finish

end Straightline
