import Straightline.Ir.Instruction

/-!
# Binary operators

* `BinaryOperator` are the operators that a script can name and have a meaning; `==` has a name
  only.
* `BinaryOperator.instruction?` is the instruction that an operator becomes.
-/

namespace Straightline

/-- An operator of a script. -/
inductive BinaryOperator where
  | arithmetic (op : Double.Arithmetic)
  | comparison (condition : Double.Comparison)
  /-- Known by name, but there is no instruction for it. -/
  | equality
  deriving DecidableEq

namespace BinaryOperator

/-- The operator as it is written. -/
def symbol : BinaryOperator → String
  | arithmetic .add => "+"
  | arithmetic .sub => "-"
  | arithmetic .mul => "*"
  | arithmetic .div => "/"
  | comparison .greater => ">"
  | comparison .less => "<"
  | equality => "=="

/-- The operator that is written so. -/
def ofSymbol? : String → Option BinaryOperator
  | "+" => some (arithmetic .add)
  | "-" => some (arithmetic .sub)
  | "*" => some (arithmetic .mul)
  | "/" => some (arithmetic .div)
  | ">" => some (comparison .greater)
  | "<" => some (comparison .less)
  | "==" => some equality
  | _ => none

@[simp] theorem ofSymbol?_symbol (op : BinaryOperator) : ofSymbol? op.symbol = some op := by
  rcases op with op | condition | _
  · cases op <;> rfl
  · cases condition <;> rfl
  · rfl

/-- What an operator does to two operands, and what its result is named after. -/
def instruction? : BinaryOperator → Option ((Operand → Operand → Kind) × String)
  | arithmetic op => some (.binary op, op.opcode)
  | comparison .greater => some (.compare .greater, "cmpgt")
  | comparison .less => some (.compare .less, "cmplt")
  | equality => none

end BinaryOperator

end Straightline
