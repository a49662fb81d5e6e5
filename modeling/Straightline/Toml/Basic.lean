import Straightline.Double

/-!
# TOML data

* `Toml` is a value of a TOML document. Tables remember how they came about, since that decides
  whether more may be added to them.
* `Toml.lookup?` finds an entry of a table.
-/

namespace Straightline

/-- How a table came about. -/
inductive TableOrigin where
  /-- By a header of its own, or as an element of an array of tables. -/
  | header
  /-- As a table on the way to one with a header. -/
  | onTheWay
  /-- As a table on the way of a dotted key. -/
  | dotted
  /-- Between braces. -/
  | inline
  deriving DecidableEq

/-- Whether keys may lead through a table: dotted ones only through tables without a definition of
    their own, and none through a table between braces. -/
def TableOrigin.isOpen (byDots : Bool) : TableOrigin → Bool
  | header => !byDots
  | onTheWay => true
  | dotted => true
  | inline => false

/-- A value of a TOML document. -/
inductive Toml where
  | string (text : String)
  | integer (value : Int)
  | float (value : Double)
  | boolean (value : Bool)
  /-- A date, a time, or both. -/
  | moment
  | array (items : List Toml)
  /-- An array of tables that headers in double brackets make. -/
  | tables (items : List Toml)
  | table (origin : TableOrigin) (entries : List (String × Toml))

namespace Toml

/-- The entries of a table. -/
abbrev Entries := List (String × Toml)

/-- The entry of a key. -/
def lookup? (entries : Entries) (key : String) : Option Toml :=
  (entries.find? (·.1 = key)).map (·.2)

/-- Put a value in the place of the entry of a key, or at the end if there is none. -/
def put (entries : Entries) (key : String) (value : Toml) : Entries :=
  if entries.any (·.1 = key) then entries.map fun e => if e.1 = key then (key, value) else e
  else entries ++ [(key, value)]

end Toml

end Straightline
