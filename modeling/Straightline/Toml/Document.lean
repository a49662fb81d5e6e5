import Straightline.Toml.Number
import Straightline.Toml.Table
import Straightline.Toml.Text

/-!
# TOML documents

* `Read.value` reads a value, in which arrays and tables may nest only so deep.
* `Read.document?` reads a whole document into the entries of its root table.
-/

namespace Straightline.Toml.Read

open Reader

/-! ### Values -/

/-- A key, an equals sign and a value. -/
def keyValue (value : Reader Toml) : Reader (List String × Toml) := do
  let key ← key
  exactly '='
  blanks
  return (key, ← value)

/-- Define a value under a dotted key, inside the table that a header leads to. -/
def defineIn (header : List String) (key : List String) (value : Toml) (origin : TableOrigin)
    (entries : Entries) : Option Entries := do
  let name ← key.getLast?
  let path := header.map (·, false) ++ key.dropLast.map (·, true)
  within (define name value (1 < key.length)) path origin entries

/-- The items of an array, between brackets. -/
def items (value : Reader Toml) : Reader (List Toml) := do
  exactly '['
  let items ← possibly do
    let items ← separated (do spread; let v ← value; spread; return v) (exactly ',')
    -- A comma behind the last item is allowed.
    let _ ← possibly (exactly ',')
    return items
  spread
  exactly ']'
  return items.getD []

/-- The entries of a table between braces. -/
def inlineEntries (value : Reader Toml) : Reader Entries := do
  exactly (Char.ofNat 0x7B)
  let pairs ← possibly (separated (do let p ← keyValue value; blanks; return p) (exactly ','))
  blanks
  exactly (Char.ofNat 0x7D)
  (pairs.getD []).foldlM (fun entries (key, v) => defineIn [] key v .inline entries) []

/-- A value that is neither an array nor a table. -/
def scalar : Reader Toml :=
  (Toml.string <$> string)
    <|> (do moment; return .moment)
    <|> (Toml.float <$> float)
    <|> (Toml.integer <$> integer)
    <|> (do word "true"; return .boolean true)
    <|> (do word "false"; return .boolean false)

/-- A value with at most `depth` levels of arrays and tables. -/
def value : (depth : Nat) → Reader Toml
  | 0 => scalar
  | depth + 1 =>
    scalar
      <|> (Toml.array <$> items (value depth))
      <|> (Toml.table .inline <$> inlineEntries (value depth))

/-! ### Documents -/

/-- A line of a document. -/
inductive Line where
  | blank
  | definition (key : List String) (value : Toml)
  | tableHeader (key : List String)
  | elementHeader (key : List String)

/-- A line, with the blanks in front of it. -/
def line : Reader Line := do
  blanks
  (do newline; return .blank)
    <|> (do comment; (newline <|> ending); return .blank)
    <|> (do
      -- Before `[`, which starts it too.
      word "[["
      let key ← key
      word "]]"
      lineEnd
      return .elementHeader key)
    <|> (do
      exactly '['
      let key ← key
      exactly ']'
      lineEnd
      return .tableHeader key)
    <|> (do
      let (key, v) ← keyValue (value (nestingLimit - 1))
      lineEnd
      return .definition key v)

/-- A document under construction: the entries of its root, and the header that its lines are
    under. -/
structure Draft where
  root : Entries := []
  header : List String := []

/-- Open the table of a header. -/
def Draft.openHeader (d : Draft) (key : List String)
    (openAt : String → TableOrigin → Entries → Option Entries) : Option Draft := do
  let name ← key.getLast?
  let root ← within (openAt name) (key.dropLast.map (·, false)) .header d.root
  return ⟨root, key⟩

/-- Add a line to a document. -/
def Draft.add (d : Draft) : Line → Option Draft
  | .blank => some d
  | .definition key v => do return { d with root := ← defineIn d.header key v .header d.root }
  | .tableHeader key => d.openHeader key openTable
  | .elementHeader key => d.openHeader key openElement

/-- A mark that may stand at the very start of a document. -/
def byteOrderMark : Char := Char.ofNat 0xFEFF

/-- The entries of the root table of a document. -/
def document? (source : String) : Option Entries := do
  let cs := source.toList
  let cs := if cs.head? = some byteOrderMark then cs.tail else cs
  let (lines, rest) := manyFrom line cs
  if rest.all isBlank then return (← lines.foldlM Draft.add {}).root else none

end Straightline.Toml.Read
