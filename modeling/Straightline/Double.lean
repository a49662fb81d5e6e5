/-!
# Double-precision numbers

A `Double` is a 64-bit pattern of the binary64 format. Keeping the pattern, and not only the number
it stands for, keeps signed zeros and the payloads of NaNs apart.

* `Double.view` says what a pattern stands for: no number, an infinity, or `± mantissa * 2 ^
  exponent`.
* `Double.ofMagnitude` packs a sign and the low 63 bits.
* `Arithmetic` and `Comparison` are the operations that a script can ask for.
-/

namespace Straightline

/-- A double-precision number, given by its bit pattern. -/
structure Double where
  bits : UInt64
  deriving DecidableEq, Inhabited

namespace Double

/-- What a bit pattern stands for. -/
inductive View where
  | nan
  | infinity
  /-- The number `mantissa * 2 ^ exponent`, up to its sign. -/
  | finite (mantissa : Nat) (exponent : Int)
  deriving DecidableEq

/-- The sign bit. -/
def negative (d : Double) : Bool := Nat.pow 2 63 ≤ d.bits.toNat

/-- All bits but the sign, which order the magnitudes. -/
def magnitude (d : Double) : Nat := d.bits.toNat % Nat.pow 2 63

/-- The magnitude of the infinities; larger ones are NaNs. -/
def infinityMagnitude : Nat := 2047 * Nat.pow 2 52

/-- What the pattern stands for, up to its sign: patterns below `2 ^ 52` are subnormal, and any
    other finite one has an implicit leading bit. -/
def view (d : Double) : View :=
  let m := d.magnitude
  if infinityMagnitude < m then .nan
  else if m = infinityMagnitude then .infinity
  -- Below the normal numbers the hidden bit is not set.
  else if m < Nat.pow 2 52 then .finite m (-1074)
  else .finite (Nat.pow 2 52 + m % Nat.pow 2 52) ((m / Nat.pow 2 52 : Nat) - 1075 : Int)

/-- The pattern with the given sign and magnitude. -/
def ofMagnitude (negative : Bool) (magnitude : Nat) : Double :=
  ⟨UInt64.ofNat (magnitude + if negative then Nat.pow 2 63 else 0)⟩

def zero : Double := ⟨0⟩

instance : Neg Double where
  neg d := ofMagnitude (!d.negative) d.magnitude

/-- The number as the machine's own, for arithmetic. -/
def toFloat (d : Double) : Float := Float.ofBits d.bits

def ofFloat (x : Float) : Double := ⟨x.toBits⟩

def isNaN (d : Double) : Bool := infinityMagnitude < d.magnitude

/-- The four operations of arithmetic. -/
inductive Arithmetic where
  | add | sub | mul | div
  deriving DecidableEq

/-- The result of an operation, rounded to nearest with ties to even. -/
def Arithmetic.eval (op : Arithmetic) (a b : Double) : Double :=
  match op with
  | add => ofFloat (a.toFloat + b.toFloat)
  | sub => ofFloat (a.toFloat - b.toFloat)
  | mul => ofFloat (a.toFloat * b.toFloat)
  | div => ofFloat (a.toFloat / b.toFloat)

/-- The two comparisons, both of the unordered kind: they hold if an operand is not a number. -/
inductive Comparison where
  | greater | less
  deriving DecidableEq

def Comparison.eval (p : Comparison) (a b : Double) : Bool :=
  a.isNaN || b.isNaN ||
    match p with
    | greater => b.toFloat < a.toFloat
    | less => a.toFloat < b.toFloat

/-- Every comparison holds if its left operand is not a number. -/
@[simp] theorem Comparison.eval_of_isNaN_left (p : Comparison) {a : Double} (b : Double)
    (h : a.isNaN = true) : p.eval a b = true := by
  simp [Comparison.eval, h]

/-- Every comparison holds if its right operand is not a number. -/
@[simp] theorem Comparison.eval_of_isNaN_right (p : Comparison) (a : Double) {b : Double}
    (h : b.isNaN = true) : p.eval a b = true := by
  simp [Comparison.eval, h]

end Double

end Straightline
