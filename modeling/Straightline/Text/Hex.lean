/-!
# Hexadecimal digits

* `hexDigits` writes a number in base sixteen with a least width, and `hexValue?` reads a digit.
-/

namespace Straightline.Text

/-- The digits of `n` in base sixteen, upper case, filled up with zeros on the left to the given
    width. -/
def hexDigits (width n : Nat) : List Char :=
  let ds := (Nat.toDigits 16 n).map Char.toUpper
  List.replicate (width - ds.length) '0' ++ ds

/-- The value of a hexadecimal digit. -/
def hexValue? (c : Char) : Option Nat :=
  if '0' ≤ c && c ≤ '9' then some (c.toNat - 48)
  else if 'a' ≤ c && c ≤ 'f' then some (c.toNat - 87)
  else if 'A' ≤ c && c ≤ 'F' then some (c.toNat - 55)
  else none

end Straightline.Text
