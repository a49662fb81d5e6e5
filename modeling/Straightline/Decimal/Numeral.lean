import Straightline.Double.Nearest

/-!
# Decimal numerals

A numeral is a sign, digits with at most one point among them, and an optional power of ten.

* `Numeral.read?` reads a numeral that fills the whole text, and `Numeral.readInt?` a whole number.
* `Numeral.toDouble` is the double nearest to its value.
-/

namespace Straightline

/-- The decimal number `± coefficient * 10 ^ exponent`. -/
structure Numeral where
  negative : Bool
  coefficient : Nat
  exponent : Int
  deriving DecidableEq

namespace Numeral

/-- Digits that fill the whole text, and at least one. -/
def readDigits? (cs : List Char) : Option Nat :=
  if cs.isEmpty then none
  else if cs.all Char.isDigit then some (Decimal.ofDigits cs) else none

/-- Digits that fill the whole text, possibly behind a sign. -/
def readInt? : List Char → Option Int
  | '+' :: ds => (readDigits? ds).map fun n : Nat => (n : Int)
  | '-' :: ds => (readDigits? ds).map fun n : Nat => -(n : Int)
  | ds => (readDigits? ds).map fun n : Nat => (n : Int)

/-- A whole number of 32 bits that fills the whole text. -/
def readInt32? (cs : List Char) : Option Int :=
  (readInt? cs).filter fun n => -2147483648 ≤ n && n ≤ 2147483647

/-- What may follow the digits of a numeral: nothing, or a mark, a sign and the digits of a
    power. -/
def readExponent? : List Char → Option Int
  | [] => some 0
  | mark :: cs => if mark = 'e' || mark = 'E' then readInt? cs else none

/-- A numeral without its sign. Each digit after the point lowers the exponent by one. -/
def readUnsigned? (negative : Bool) (cs : List Char) : Option Numeral :=
  let whole := cs.takeWhile Char.isDigit
  let afterWhole := cs.dropWhile Char.isDigit
  let (fraction, tail) :=
    match afterWhole with
    | '.' :: r => (r.takeWhile Char.isDigit, r.dropWhile Char.isDigit)
    | r => ([], r)
  -- Digits may be missing on one side of the point, not on both.
  if whole.isEmpty && fraction.isEmpty then none
  else (readExponent? tail).map fun e =>
    ⟨negative, Decimal.ofDigits (whole ++ fraction), e - fraction.length⟩

/-- The numeral that fills the whole text, if it is one. -/
def read? : List Char → Option Numeral
  | '-' :: cs => readUnsigned? true cs
  | cs => readUnsigned? false cs

/-- The double nearest to the numeral's value. -/
def toDouble (n : Numeral) : Double := .ofDecimal n.negative n.coefficient n.exponent

end Numeral

/-- The double that a decimal text stands for. -/
def Double.read? (cs : List Char) : Option Double := (Numeral.read? cs).map Numeral.toDouble

end Straightline
