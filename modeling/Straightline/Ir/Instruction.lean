import Straightline.Double

/-!
# Instructions

The instructions of straight-line code in single-assignment form. An instruction is stored in the
arena of its function's body and its result is named by its index there.

* `Ty` are the types of values and `Operand` what an instruction may take.
* `Kind` is what an instruction does, and `Instruction` adds the type and the name of its result.
-/

namespace Straightline

/-- The type of a value; `void` is the type of an instruction without one. -/
inductive Ty where
  | i1 | i32 | double | ptr | void
  deriving DecidableEq, Inhabited

namespace Ty

/-- The type as it is written. -/
def text : Ty → String
  | i1 => "i1"
  | i32 => "i32"
  | double => "double"
  | ptr => "ptr"
  | void => "void"

/-- The alignment of a value in memory, in bytes. -/
def align : Ty → Nat
  | i1 => 1
  | i32 => 4
  | double => 8
  | ptr => 8
  | void => 0

end Ty

/-- What an instruction works on: a constant, the address of a global, or the result of an earlier
    instruction of the same body. -/
inductive Operand where
  | double (value : Double)
  | i32 (value : Int32)
  | inst (index : Nat)
  | global (index : Nat)
  deriving DecidableEq

/-- The name of an arithmetic operation as an instruction. -/
def Double.Arithmetic.opcode : Double.Arithmetic → String
  | add => "fadd"
  | sub => "fsub"
  | mul => "fmul"
  | div => "fdiv"

/-- The name of a comparison as a condition of an instruction. -/
def Double.Comparison.keyword : Double.Comparison → String
  | greater => "ugt"
  | less => "ult"

/-- What an instruction does. -/
inductive Kind where
  /-- Reserve a slot on the stack. -/
  | alloca (ty : Ty)
  | load (ty : Ty) (ptr : Operand)
  | store (value ptr : Operand)
  | binary (op : Double.Arithmetic) (lhs rhs : Operand)
  | compare (condition : Double.Comparison) (lhs rhs : Operand)
  /-- Turn an unsigned whole number into a double. -/
  | widen (value : Operand)
  | call (callee : Nat) (args : List Operand)
  | ret (value : Option Operand)
  deriving DecidableEq

/-- Whether the instruction ends its block. -/
def Kind.isTerminator : Kind → Bool
  | ret _ => true
  | _ => false

/-- An instruction with the type and the name of its result. -/
structure Instruction where
  kind : Kind
  ty : Ty
  name : Option String
  deriving DecidableEq

end Straightline
