/-!
# Decimal digits

* `Decimal.digits` and `Decimal.text` write a number, `Decimal.padded` writes it with a least width,
  and `Decimal.ofDigits` reads digits back.
* `Decimal.width` counts digits, and `Decimal.log10` finds the decade of a fraction.
* `roundHalfEven` rounds a fraction to the nearest whole number.
-/

namespace Straightline.Decimal

/-- The digits of `n`, most significant first. -/
def digits (n : Nat) : List Char := Nat.toDigits 10 n

/-- The digits of `n` as a text. -/
def text (n : Nat) : String := String.ofList (digits n)

/-- A whole number with a minus if it is negative. -/
def intText (n : Int) : String := (if n < 0 then "-" else "") ++ text n.natAbs

/-- The digits of `n`, filled up with zeros on the left to the given width. -/
def padded (width n : Nat) : List Char :=
  List.replicate (width - (digits n).length) '0' ++ digits n

/-- The number that a list of digits stands for. -/
def ofDigits (cs : List Char) : Nat :=
  cs.foldl (fun n c => 10 * n + (c.toNat - '0'.toNat)) 0

/-- How many digits `n` has. -/
def width (n : Nat) : Nat := (digits n).length

/-- The fraction `num / den` scaled by a power of ten, again as a fraction. -/
def scale (num den : Nat) (e : Int) : Nat × Nat :=
  if e < 0 then (num, den * Nat.pow 10 (-e).toNat) else (num * Nat.pow 10 e.toNat, den)

/-- The decade of a positive fraction: the greatest `k` with `10 ^ k ≤ num / den`. Counting digits
    leaves two candidates, and a comparison decides. -/
def log10 (num den : Nat) : Int :=
  let k : Int := (width num : Int) - width den
  let (n, d) := scale num den (-k)
  if d ≤ n then k else k - 1

/-- The whole number nearest to `num / den`; a tie goes to the even neighbour. -/
def roundHalfEven (num den : Nat) : Nat :=
  let q := num / den
  let r := num % den
  if 2 * r < den then q
  else if den < 2 * r then q + 1
  else if q % 2 = 0 then q else q + 1

end Straightline.Decimal
