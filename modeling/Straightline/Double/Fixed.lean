import Straightline.Double.Nearest

/-!
# Doubles with a fixed number of decimal places

* `Double.toFixed` writes the exact value of a double, rounded to the given number of places.
-/

namespace Straightline.Double

open Decimal

/-- A minus for a negative double. The sign bit counts, so `-0.0` has one. -/
def signText (d : Double) : List Char := if d.negative then ['-'] else []

/-- The digits of `n`, the last `places` of them behind a point. -/
def withPoint (places n : Nat) : List Char :=
  digits (n / Nat.pow 10 places) ++ '.' :: padded places (n % Nat.pow 10 places)

/-- The value with `places` digits after the point; a tie goes to the even digit. A NaN is written
    with its sign bit, as every other double is. -/
def toFixed (places : Nat) (d : Double) : String :=
  String.ofList <| d.signText ++
    match d.view with
    | .nan => ['n', 'a', 'n']
    | .infinity => ['i', 'n', 'f']
    | .finite m e =>
      let (num, den) := binaryFraction m e
      withPoint places (roundHalfEven (num * Nat.pow 10 places) den)

end Straightline.Double
