import Straightline.Emission.Compilation
import Straightline.Toml.Document

/-!
# Settings

A settings file is a TOML document. What it says is taken by the names of its keys, and keys that
mean nothing are passed over.

* `Settings.ofSource?` reads a settings file.
-/

namespace Straightline

/-- What a settings file can say. -/
structure Settings where
  compile : Options := {}
  deriving DecidableEq

/-- The text of a string. -/
def Toml.asString? : Toml → Option String
  | string s => some s
  | _ => none

/-- Whether a value is an array or a table, and holds nothing. -/
def Toml.isHollow : Toml → Bool
  | array items => items.isEmpty
  | tables items => items.isEmpty
  | table _ entries => entries.isEmpty
  | _ => false

/-- A policy: its name as a string, or as the only key of a table, above nothing. -/
def ReadPolicy.ofToml? : Toml → Option ReadPolicy
  | .string s => ofText? s
  | .table _ [(key, value)] => if value.isHollow then ofText? key else none
  | _ => none

namespace Options

/-- Options from the values that are there for them. -/
def ofValues? (moduleName reads : Option Toml) : Option Options := do
  let defaults : Options := {}
  let moduleName ← (moduleName.mapM Toml.asString?).map (·.getD defaults.moduleName)
  let reads ← (reads.mapM ReadPolicy.ofToml?).map (·.getD defaults.reads)
  return { moduleName, reads }

/-- Options from a table by key, or from an array by position. A date has no key that means
    anything. -/
def ofToml? : Toml → Option Options
  | .table _ entries =>
    ofValues? (Toml.lookup? entries "module-name") (Toml.lookup? entries "uninit-reads")
  -- A list gives the fields by their order.
  | .array items => ofValues? items[0]? items[1]?
  | .tables items => ofValues? items[0]? items[1]?
  | .moment => some {}
  | _ => none

end Options

namespace Settings

/-- The settings in the root table of a document. -/
def ofEntries? (entries : Toml.Entries) : Option Settings :=
  match Toml.lookup? entries "compile" with
  | none => some {}
  | some value => (Options.ofToml? value).map fun compile => { compile }

/-- The settings of a settings file. -/
def ofSource? (source : String) : Option Settings :=
  (Toml.Read.document? source).bind ofEntries?

end Settings

end Straightline
