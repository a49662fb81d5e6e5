import Straightline.Double
import Straightline.Decimal.Digits

/-!
# The double nearest to a fraction or a decimal

* `Double.ofFraction` rounds a fraction to the nearest double, ties to even.
* `Double.ofDecimal` rounds `coefficient * 10 ^ exponent`.
* `Double.binaryFraction` goes back: every finite double is a fraction.
-/

namespace Straightline.Double

open Decimal (roundHalfEven)

/-- The binary order of a positive fraction: the greatest `k` with `2 ^ k ≤ num / den`. -/
def log2 (num den : Nat) : Int :=
  let k : Int := (num.log2 : Int) - den.log2
  if k < 0 then (if den ≤ num * Nat.pow 2 (-k).toNat then k else k - 1)
  else (if den * Nat.pow 2 k.toNat ≤ num then k else k - 1)

/-- The magnitude of the double nearest to `num / den`. The last place is `2 ^ q`, where `q` leaves
    53 bits but is at least `-1074`. A mantissa that rounds up to the next power of two carries into
    the exponent by itself, and one that passes the greatest finite double is cut at infinity. -/
def nearestMagnitude (num den : Nat) : Nat :=
  if num = 0 then 0
  else
    -- The exponent of the last bit: 53 bits of precision, or what is left of them near zero.
    let q : Int := max (log2 num den - 52) (-1074)
    let mantissa :=
      if q < 0 then roundHalfEven (num * Nat.pow 2 (-q).toNat) den
      else roundHalfEven num (den * Nat.pow 2 q.toNat)
    -- A mantissa that was rounded up to a power of two carries into the exponent by itself.
    min ((q + 1074).toNat * Nat.pow 2 52 + mantissa) infinityMagnitude

/-- The double nearest to `± num / den`. -/
def ofFraction (negative : Bool) (num den : Nat) : Double :=
  ofMagnitude negative (nearestMagnitude num den)

/-- The double nearest to `± coefficient * 10 ^ exponent`. Decimals of `10 ^ 309` and more are
    infinite and those below `10 ^ -324` are zero, so no larger power of ten is ever formed. -/
def ofDecimal (negative : Bool) (coefficient : Nat) (exponent : Int) : Double :=
  if coefficient = 0 then ofMagnitude negative 0
  else
    let top := Decimal.width coefficient + exponent
    -- Outside this range the result is known, and the powers of ten stay small inside it.
    if 310 ≤ top then ofMagnitude negative infinityMagnitude
    else if top ≤ -324 then ofMagnitude negative 0
    else
      let (num, den) := Decimal.scale coefficient 1 exponent
      ofFraction negative num den

/-- The double nearest to a natural number. -/
def ofNat (n : Nat) : Double := ofFraction false n 1

/-- The number `mantissa * 2 ^ exponent` as a fraction. -/
def binaryFraction (mantissa : Nat) (exponent : Int) : Nat × Nat :=
  if exponent < 0 then (mantissa, Nat.pow 2 (-exponent).toNat)
  else (mantissa * Nat.pow 2 exponent.toNat, 1)

end Straightline.Double
