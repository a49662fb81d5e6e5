import Straightline.Toml.Basic

/-!
# Adding to TOML tables

A table may be added to in several places of a document, but it is defined only once. Headers and
dotted keys make the tables that they lead through.

* `Toml.within` changes the table that a path leads to.
* `Toml.define`, `Toml.openTable` and `Toml.openElement` add a value, a table with a header, and an
  element of an array of tables.
-/

namespace Straightline.Toml

/-- Change the last of a list of tables. -/
def changeLast (change : TableOrigin → Entries → Option Entries) : List Toml → Option (List Toml)
  | [] => none
  | [.table origin entries] => do return [.table origin (← change origin entries)]
  | t :: ts => do return t :: (← changeLast change ts)

/-- Change the table that a path leads to. Each part of the path says whether it is of a dotted key.
    Tables that are missing on the way are made, and an array of tables leads to its last
    element. -/
def within (change : TableOrigin → Entries → Option Entries) :
    List (String × Bool) → TableOrigin → Entries → Option Entries
  | [], origin, entries => change origin entries
  | (key, dotted) :: path, _, entries =>
    match lookup? entries key with
    | none => do
      -- A table that is missing on the way is made there.
      let origin := if dotted then TableOrigin.dotted else .onTheWay
      return put entries key (.table origin (← within change path origin []))
    | some (.table origin inner) =>
      if origin.isOpen dotted then do
        return put entries key (.table origin (← within change path origin inner))
      else none
    -- A path through an array of tables goes on in the last one.
    | some (.tables items) => do
      return put entries key (.tables (← changeLast (within change path) items))
    | some _ => none

/-- Add a value under a new key. Behind a dotted key the table has to be one that dotted keys
    made. -/
def define (key : String) (value : Toml) (dotted : Bool) (origin : TableOrigin)
    (entries : Entries) :
    Option Entries :=
  if (origin == .dotted) != dotted || (lookup? entries key).isSome then none
  else some (put entries key value)

/-- Give a table a header. A table without a definition of its own keeps its entries. -/
def openTable (key : String) (_ : TableOrigin) (entries : Entries) : Option Entries :=
  match lookup? entries key with
  | none => some (put entries key (.table .header []))
  | some (.table .onTheWay inner) => some (put entries key (.table .header inner))
  | some _ => none

/-- Add an element to an array of tables, which is made if it is missing. -/
def openElement (key : String) (_ : TableOrigin) (entries : Entries) : Option Entries :=
  match lookup? entries key with
  | none => some (put entries key (.tables [.table .header []]))
  | some (.tables items) => some (put entries key (.tables (items ++ [.table .header []])))
  | some _ => none

end Straightline.Toml
