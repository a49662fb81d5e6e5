import Straightline.Decimal.Digits
import Straightline.Text.Quoted

/-!
# Log events

What the program reports about its work. An event has a level, which says how much it matters, and a
target, which says what part of the program it is about; a filter decides by these two.

* `Event.line` is an event as a line of the log.
-/

namespace Straightline

/-- How much an event matters, from the most to the least. -/
inductive Level where
  | error | warn | info | debug | trace
  deriving DecidableEq

namespace Level

/-- A number for the order of levels: the more an event matters, the smaller. -/
def rank : Level → Nat
  | error => 1
  | warn => 2
  | info => 3
  | debug => 4
  | trace => 5

/-- The level at the start of a line, five characters wide. -/
def text : Level → String
  | error => "ERROR"
  | warn => " WARN"
  | info => " INFO"
  | debug => "DEBUG"
  | trace => "TRACE"

end Level

/-- Something that happened. -/
inductive Event where
  | entryInitialized (module : String)
  | slotAllocated (name : String)
  | readBeforeWrite (name : String)
  | zeroInitialized (name : String)
  | printfDeclared
  | entryFinalized (slots : Nat)
  | entryReturned (exitCode : Int32)
  | moduleSerialized (bytes : Nat)
  | moduleWritten (input output : String)
  | settingsLoaded (path : String)
  | programFinished (exitCode : Int32)
  deriving DecidableEq

namespace Event

def level : Event → Level
  | readBeforeWrite _ => .warn
  | moduleWritten .. => .info
  | programFinished _ => .info
  | _ => .debug

/-- The part of the program that an event is about. -/
def target : Event → String
  | entryInitialized _ => "ssc_codegen::context"
  | slotAllocated _ => "ssc_codegen::context"
  | readBeforeWrite _ => "ssc_codegen::context"
  | zeroInitialized _ => "ssc_codegen::context"
  | printfDeclared => "ssc_codegen::output"
  | entryFinalized _ => "ssc_codegen::context"
  | entryReturned _ => "ssc_interpreter::interpreter"
  | moduleSerialized _ => "ssc_driver"
  | moduleWritten .. => "ssc_driver"
  | settingsLoaded _ => "ssc_driver::config"
  | programFinished _ => "ssc::run"

def message : Event → String
  | entryInitialized _ => "initialized entry function"
  | slotAllocated _ => "allocated variable slot"
  | readBeforeWrite _ => "variable read before assignment, value is unspecified"
  | zeroInitialized _ => "zero-initializing variable read before assignment"
  | printfDeclared => "declaring external printf"
  | entryFinalized _ => "finalized entry function"
  | entryReturned _ => "entry function returned"
  | moduleSerialized _ => "serialized module"
  | moduleWritten .. => "wrote module"
  | settingsLoaded _ => "loaded configuration"
  | programFinished _ => "program finished"

/-- The details of an event. Names of variables are quoted; names of modules and files are not. -/
def fields : Event → List (String × String)
  | entryInitialized module => [("module", module)]
  | slotAllocated name => [("name", Text.quoted name)]
  | readBeforeWrite name => [("name", Text.quoted name)]
  | zeroInitialized name => [("name", Text.quoted name)]
  | printfDeclared => []
  | entryFinalized slots => [("slots", Decimal.text slots)]
  | entryReturned code => [("exit_code", Decimal.intText code.toInt)]
  | moduleSerialized bytes => [("bytes", Decimal.text bytes)]
  | moduleWritten input output => [("input", input), ("output", output)]
  | settingsLoaded path => [("path", path)]
  | programFinished code => [("exit_code", Decimal.intText code.toInt)]

/-- Whether an event has a detail of a name. Its message counts as one. -/
def hasDetail (e : Event) (name : String) : Bool :=
  name = "message" || e.fields.any (·.1 = name)

/-- An event as a line of the log: level, message and details. -/
def line (e : Event) : String :=
  " ".intercalate (e.level.text :: e.message :: e.fields.map fun (k, v) => k ++ "=" ++ v)

end Event

end Straightline
