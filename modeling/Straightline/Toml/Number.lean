import Straightline.Decimal.Numeral
import Straightline.Text.Reader

/-!
# TOML numbers, dates and times

* `Read.integer` reads a whole number, which has to fit in 64 bits.
* `Read.float` reads a number with a fraction or an exponent, or an infinity or NaN.
* `Read.moment` reads a date, a time, or both.
-/

namespace Straightline.Toml.Read

open Reader

/-! ### Numbers -/

def sign : Reader (Option Char) := possibly (char fun c => c = '+' || c = '-')

/-- Digits, between two of which there may be an underscore. -/
def digitRun (isDigit : Char → Bool) : Reader (List Char) := do
  let first ← char isDigit
  let others ← many (char isDigit <|> do exactly '_'; char isDigit)
  return first :: others

/-- Digits that do not start with a zero, unless that is all. -/
def decimalDigits : Reader (List Char) := fun cs =>
  if cs.head? = some '0' then some (['0'], cs.tail) else digitRun Char.isDigit cs

def isHexDigit (c : Char) : Bool :=
  c.isDigit || ('a' ≤ c && c ≤ 'f') || ('A' ≤ c && c ≤ 'F')

def isOctalDigit (c : Char) : Bool := '0' ≤ c && c ≤ '7'

def isBinaryDigit (c : Char) : Bool := c = '0' || c = '1'

/-- The value of digits in a base. -/
def valueOf (base : Nat) (cs : List Char) : Nat :=
  cs.foldl (fun n c => base * n +
    if c.isDigit then c.toNat - 48 else if 'a' ≤ c then c.toNat - 87 else c.toNat - 55) 0

/-- A number that fits in 64 bits with a sign. -/
def inRange (n : Int) : Reader Int :=
  if Int64.minValue.toInt ≤ n ∧ n ≤ Int64.maxValue.toInt then return n else failure

/-- A number in another base, behind the mark of the base. -/
def based (mark : String) (base : Nat) (isDigit : Char → Bool) : Reader Int := do
  word mark
  inRange (valueOf base (← digitRun isDigit))

/-- A whole number. -/
def integer : Reader Int :=
  based "0x" 16 isHexDigit <|> based "0o" 8 isOctalDigit <|> based "0b" 2 isBinaryDigit <|> do
    let sign ← sign
    let n := valueOf 10 (← decimalDigits)
    inRange (if sign = some '-' then -(n : Int) else n)

/-- A fraction, point included. -/
def fraction : Reader (List Char) := do
  exactly '.'
  return '.' :: (← digitRun Char.isDigit)

/-- An exponent, mark included. -/
def exponent : Reader (List Char) := do
  let _ ← char fun c => c = 'e' || c = 'E'
  let sign ← sign
  return 'e' :: sign.toList ++ (← digitRun Char.isDigit)

/-- A number with a fraction, an exponent or both. One that is too large is refused, but only if it
    is positive. -/
def numericFloat : Reader Double := do
  let sign ← sign
  let whole ← decimalDigits
  let rest ← exponent <|> do
    let fraction ← fraction
    return fraction ++ ((← possibly exponent).getD [])
  match Double.read? (whole ++ rest) with
  | none => failure
  | some d =>
    -- A number too large for a double is refused with any sign but the minus.
    if sign = some '-' then return -d
    else if d.view = .infinity then failure
    else return d

/-- An infinity or NaN by name. -/
def namedFloat : Reader Double := do
  let sign ← sign
  let magnitude ← (do word "inf"; return Double.infinityMagnitude)
    <|> do word "nan"; return Double.infinityMagnitude + Nat.pow 2 51
  return Double.ofMagnitude (sign = some '-') magnitude

/-- A number that need not be whole. -/
def float : Reader Double := numericFloat <|> namedFloat

/-! ### Dates and times -/

/-- A number of exactly so many digits, in a range. -/
def field (width low high : Nat) : Reader Nat := do
  let ds ← (List.replicate width ()).mapM fun _ => char Char.isDigit
  let n := Decimal.ofDigits ds
  if low ≤ n ∧ n ≤ high then return n else failure

/-- The number of days of a month. -/
def daysOf (year month : Nat) : Nat :=
  if month = 2 then
    if year % 4 = 0 ∧ (year % 100 ≠ 0 ∨ year % 400 = 0) then 29 else 28
  else if month = 4 ∨ month = 6 ∨ month = 9 ∨ month = 11 then 30
  else 31

def date : Reader Unit := do
  let year ← field 4 0 9999
  exactly '-'
  let month ← field 2 1 12
  exactly '-'
  let _ ← field 2 1 (daysOf year month)

/-- A time of day. The second may be a leap second. -/
def time : Reader Unit := do
  let _ ← field 2 0 23
  exactly ':'
  let _ ← field 2 0 59
  exactly ':'
  -- With room for a leap second.
  let _ ← field 2 0 60
  let _ ← possibly do
    exactly '.'
    let _ ← char Char.isDigit
    let _ ← run Char.isDigit

/-- The difference of a time from universal time. -/
def offset : Reader Unit :=
  (do let _ ← char fun c => c = 'Z' || c = 'z')
    <|> do
      let _ ← char fun c => c = '+' || c = '-'
      let _ ← field 2 0 23
      exactly ':'
      let _ ← field 2 0 59

/-- A date, a time, or a date and a time; only with both may there be an offset. -/
def moment : Reader Unit :=
  (do
    date
    let _ ← possibly do
      let _ ← char fun c => c = 'T' || c = 't' || c = ' '
      time
      let _ ← possibly offset) <|> time

end Straightline.Toml.Read
