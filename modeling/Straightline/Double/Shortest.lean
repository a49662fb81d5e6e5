import Straightline.Decimal.Numeral
import Straightline.Double.Fixed

/-!
# The shortest decimal text of a double

* `Double.shortest?` finds the fewest digits that read back as the double.
* `Double.toShortest` writes them without an exponent.
-/

namespace Straightline.Double

open Decimal

/-- The decimal `n * 10 ^ e` if it reads back as the magnitude of `d`. -/
def readsBack (d : Double) (n : Nat) (e : Int) : Bool :=
  (ofDecimal false n e).magnitude = d.magnitude

/-- Of the two neighbours of `num / den` on the grid of multiples of `10 ^ e`, the one that reads
    back as `d`. If both do, the nearer is taken, and of two equally near ones the larger. -/
def onGrid? (d : Double) (num den : Nat) (e : Int) : Option (Nat × Int) :=
  let (n, m) := scale num den (-e)
  let low := n / m
  match d.readsBack low e, d.readsBack (low + 1) e with
  -- Both neighbours are read back: the closer one, and the upper one in the middle.
  | true, true => if 2 * (n % m) < m then some (low, e) else some (low + 1, e)
  | true, false => some (low, e)
  | false, true => some (low + 1, e)
  | false, false => none

/-- Ten units of one grid are a single unit of the next, which needs a digit less. -/
def carry (n : Nat) (e : Int) : Nat × Int := if n = 10 then (1, e + 1) else (n, e)

/-- The coefficient and the exponent of the shortest decimal that reads back as `d`, whose magnitude
    is `num / den`: the coarsest grid with a hit. Seventeen digits always suffice. -/
def shortest? (d : Double) (num den : Nat) : Option (Nat × Int) :=
  if num = 0 then some (0, 0)
  else
    let top := log10 num den
    -- One digit more in each round, so the first hit is the shortest.
    let hit := (List.range 17).findSome? fun (k : Nat) => d.onGrid? num den (top - (k : Int))
    hit.map fun (n, e) => carry n e

/-- The digits of `n * 10 ^ e` without an exponent, and without a point if none is needed. -/
def positional (n : Nat) (e : Int) : List Char :=
  if 0 ≤ e then digits (n * Nat.pow 10 e.toNat) else withPoint (-e).toNat n

/-- The shortest text that reads back as the double, without an exponent. -/
def toShortest (d : Double) : String :=
  match d.view with
  | .nan => "NaN"
  | .infinity => String.ofList (d.signText ++ ['i', 'n', 'f'])
  | .finite m e =>
    let (num, den) := binaryFraction m e
    match d.shortest? num den with
    | some (n, k) => String.ofList (d.signText ++ positional n k)
    -- Seventeen digits are always enough, so this is not reached.
    | none => ""

end Straightline.Double
