import Straightline.Decimal.Numeral
import Straightline.Double.Fixed
import Straightline.Text.Hex
import Straightline.Text.Split

/-!
# Doubles as constants of the textual IR

A constant is written with six decimals and an exponent if that text stands for exactly this double,
and as its bit pattern otherwise, so that no bit is lost.

* `Double.exponential?` writes the exponent as it is, and `respell?` gives it a sign and two digits.
* `Double.scientific?` and `Double.hexText` are the two forms.
* `Double.constantText` chooses between them.
-/

namespace Straightline.Double

open Decimal

/-- The coefficient, of `places + 1` digits, and the decade of a positive fraction. Rounding up to
    the next power of ten moves to the next decade. -/
def normalized (places num den : Nat) : Nat × Int :=
  let k := log10 num den
  let (n, d) := scale num den (places - k)
  let c := roundHalfEven n d
  if c = Nat.pow 10 (places + 1) then (Nat.pow 10 places, k + 1) else (c, k)

/-- The coefficient and the decade of `mantissa * 2 ^ exponent`. Those of zero are zero. -/
def rounded (places mantissa : Nat) (exponent : Int) : Nat × Int :=
  let (num, den) := binaryFraction mantissa exponent
  if num = 0 then (0, 0) else normalized places num den

/-- A finite double with one digit before the point and `places` after it, and its decade as it is
    behind an `e`; a tie goes to the even digit. -/
def exponential? (places : Nat) (d : Double) : Option (List Char) :=
  match d.view with
  | .finite m e =>
    let (c, k) := rounded places m e
    some (d.signText ++ withPoint places c ++ 'e' :: (intText k).toList)
  | _ => none

/-- A signed exponent of at least two digits behind its mark. -/
def exponentText (k : Int) : List Char :=
  'e' :: (if k < 0 then '-' else '+') :: padded 2 k.natAbs

/-- A number with an exponent, which is read and written anew by `exponentText`. -/
def respell? (cs : List Char) : Option (List Char) :=
  (Text.splitOnce? 'e' cs).bind fun parts =>
    (Numeral.readInt32? parts.2).map fun k => parts.1 ++ exponentText k

/-- A finite double with one digit before the point, `places` after it and a signed exponent. -/
def scientific? (places : Nat) (d : Double) : Option (List Char) :=
  (d.exponential? places).bind respell?

/-- The bit pattern in base sixteen. -/
def hexText (d : Double) : List Char := '0' :: 'x' :: Text.hexDigits 16 d.bits.toNat

/-- The text of a constant: six decimals if they read back as the very same bits, else the bits. -/
def constantText (d : Double) : List Char :=
  match d.scientific? 6 with
  | some t => if read? t = some d then t else d.hexText
  | none => d.hexText

end Straightline.Double
