import Straightline.Text.Hex
import Straightline.Text.Reader

/-!
# TOML text

Blanks, comments, keys and strings. A line ends in a newline, in front of which there may be a
carriage return; no other control character but the tab may occur.

* `Read.key` reads a key, which may be dotted.
* `Read.string` reads a string of any of the four kinds.
-/

namespace Straightline.Toml.Read

open Reader

/-! ### Blanks and comments -/

def isBlank (c : Char) : Bool := c = ' ' || c = '\t'

/-- The characters that may stand anywhere in a line: tabs and everything that is no control. -/
def isLineChar (c : Char) : Bool := c = '\t' || (' ' ≤ c && c ≠ '\x7f')

def blanks : Reader Unit := do
  let _ ← run isBlank

def newline : Reader Unit := (exactly '\n') <|> (word "\r\n")

/-- A comment, up to the end of its line. -/
def comment : Reader Unit := do
  exactly '#'
  let _ ← run isLineChar

/-- What may stand behind an expression: blanks, a comment, and the end of the line or of the
    text. -/
def lineEnd : Reader Unit := do
  blanks
  let _ ← possibly comment
  newline <|> ending

/-- Blanks, comments and newlines, as they may stand between the items of an array. -/
def spread : Reader Unit := do
  let _ ← many ((do let _ ← char isBlank) <|> newline <|> comment)

/-! ### Strings -/

/-- The number of the given count of hexadecimal digits. -/
def hexNumber : (count : Nat) → (value : Nat) → Reader Nat
  | 0, value => return value
  | count + 1, value => do
    let c ← char fun c => (Text.hexValue? c).isSome
    hexNumber count (16 * value + (Text.hexValue? c).getD 0)

/-- The character of a code point. -/
def codePoint (count : Nat) : Reader Char := do
  let n ← hexNumber count 0
  if n.isValidChar then return Char.ofNat n else failure

/-- A character behind a backslash. -/
def escaped : Reader Char := do
  exactly '\\'
  match ← char fun _ => true with
  | 'b' => return '\x08'
  | 't' => return '\t'
  | 'n' => return '\n'
  | 'f' => return '\x0c'
  | 'r' => return '\r'
  | '"' => return '"'
  | '\\' => return '\\'
  | 'u' => codePoint 4
  | 'U' => codePoint 8
  | _ => failure

/-- A character that stands for itself between quotes. -/
def plain (quote : Char) (escapes : Bool) : Reader Char :=
  char fun c => isLineChar c && c ≠ quote && !(escapes && c = '\\')

/-- A string on one line. -/
def shortString (quote : Char) (escapes : Bool) : Reader String := do
  exactly quote
  let cs ← many (plain quote escapes <|> if escapes then escaped else failure)
  exactly quote
  return String.ofList cs

/-- A backslash at the end of a line, which takes all blanks and newlines behind it away. -/
def lineContinuation : Reader Unit := do
  exactly '\\'
  blanks
  newline
  let _ ← many ((do let _ ← char isBlank) <|> newline)

/-- One or two quotes among the text of a long string. -/
def innerQuotes (quote : Char) : Reader (List Char) := do
  let quotes ← run (· = quote)
  if quotes.length = 1 || quotes.length = 2 then return quotes else failure

/-- A piece of the text of a long string. -/
def longPiece (quote : Char) (escapes : Bool) : Reader (List Char) :=
  (List.singleton <$> plain quote escapes)
    <|> (do newline; return ['\n'])
    <|> innerQuotes quote
    <|> if escapes then (do lineContinuation; return []) <|>
    (List.singleton <$> escaped) else failure

/-- A string between triple quotes, which may have several lines. A newline right behind the opening
    quotes does not count, and up to two quotes may stand right in front of the closing ones. -/
def longString (quote : Char) (escapes : Bool) : Reader String := do
  exactly quote
  exactly quote
  exactly quote
  let _ ← possibly newline
  let pieces ← many (longPiece quote escapes)
  let quotes ← run (· = quote)
  -- Up to two quotes in front of the closing ones belong to the text.
  if 3 ≤ quotes.length && quotes.length ≤ 5 then
    return String.ofList (pieces.flatten ++ quotes.drop 3)
  else failure

/-- A string: basic ones stand between double quotes and have escapes, literal ones between single
    quotes and have none. -/
def string : Reader String :=
  longString '"' true <|> shortString '"' true <|> longString '\'' false <|> shortString '\'' false

/-! ### Keys -/

/-- The characters of a key without quotes. -/
def isKeyChar (c : Char) : Bool := c.isAlphanum || c = '-' || c = '_'

/-- A key without quotes. -/
def bareKey : Reader String := do
  let cs ← run isKeyChar
  if cs.isEmpty then failure else return String.ofList cs

/-- One part of a key, with blanks around it. -/
def keyPart : Reader String := do
  blanks
  let key ← shortString '"' true <|> shortString '\'' false <|> bareKey
  blanks
  return key

/-- The number of levels that keys and values may nest, which is below this. -/
def nestingLimit : Nat := 80

/-- The parts of a key. -/
def key : Reader (List String) := do
  let parts ← separated keyPart (exactly '.')
  if parts.length < nestingLimit then return parts else failure

end Straightline.Toml.Read
