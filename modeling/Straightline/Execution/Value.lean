import Straightline.Double.Nearest
import Straightline.Ir.Module
import Straightline.Text.Quoted
import Straightline.Text.Utf8

/-!
# Values at run time

* `Value` are the values of running code and `Value.ty` their types.
* `RunError` says why a run ends without a result, and `RunError.message` words it.
-/

namespace Straightline

/-- What a pointer points to. -/
inductive Pointer where
  /-- The stack slot that the instruction of this index reserved. -/
  | slot (instruction : Nat)
  | global (index : Nat)
  deriving DecidableEq

/-- A value of running code. -/
inductive Value where
  | bool (value : Bool)
  | int (value : Int32)
  | double (value : Double)
  | pointer (target : Pointer)
  deriving DecidableEq

namespace Value

/-- The type of a value. -/
def ty : Value → Ty
  | bool _ => .i1
  | int _ => .i32
  | double _ => .double
  | pointer _ => .ptr

end Value

/-- What a place in running code asks of a value. -/
inductive Demand where
  | exitCode
  | integer
  | computedValue
  | double
  | stackSlot
  | stringPointer
  deriving DecidableEq

/-- A demand as error messages name it. -/
def Demand.text : Demand → String
  | exitCode => "i32"
  | integer => "integer"
  | computedValue => "computed value"
  | double => "double"
  | stackSlot => "stack slot"
  | stringPointer => "string pointer"

/-- What is wrong with a format and its arguments. -/
inductive FormatError where
  | missingFormat
  | notEnoughArguments (format : String)
  /-- A percent sign before a character that is no conversion, or at the end. -/
  | unsupportedConversion (conversion : Option Char)
  deriving DecidableEq

/-- Why a run ends without a result. -/
inductive RunError where
  | noEntry (name : String)
  | uninitializedLoad (slot : String)
  | typeMismatch (expected : Demand) (found : Ty)
  | unsupportedCall (callee : String)
  | badFormat (cause : FormatError)
  | missingTerminator (label : String)
  deriving DecidableEq

/-- The wording of an error in a format. -/
def FormatError.message : FormatError → String
  | missingFormat => "missing format argument"
  | notEnoughArguments format => "not enough arguments for " ++ Text.quoted format
  | unsupportedConversion c => "unsupported conversion `%" ++ String.ofList c.toList ++ "`"

/-- The wording of an error. -/
def RunError.message : RunError → String
  | noEntry name => "no function `" ++ name ++ "` with a body"
  | uninitializedLoad slot => "load from uninitialized slot `%" ++ slot ++ "`"
  | typeMismatch expected found =>
    "type mismatch: expected " ++ expected.text ++ ", got " ++ found.text
  | unsupportedCall callee => "cannot call `" ++ callee ++ "`"
  | badFormat cause => "invalid printf format: " ++ cause.message
  | missingTerminator label => "block `" ++ label ++ "` has no terminator"

namespace Value

/-- The double that a value has to be. -/
def asDouble : Value → Except RunError Double
  | double d => .ok d
  | v => .error (.typeMismatch .double v.ty)

@[simp] theorem asDouble_double (d : Double) : (double d).asDouble = .ok d := rfl

/-- The stack slot that a value has to point to. -/
def asSlot : Value → Except RunError Nat
  | pointer (.slot i) => .ok i
  | v => .error (.typeMismatch .stackSlot v.ty)

@[simp] theorem asSlot_slot (i : Nat) : (pointer (.slot i)).asSlot = .ok i := rfl

/-- A truth value or a whole number, read as unsigned, as a double. -/
def widen : Value → Except RunError Double
  | bool b => .ok (Double.ofNat b.toNat)
  | int n => .ok (Double.ofNat n.toUInt32.toNat)
  | v => .error (.typeMismatch .integer v.ty)

end Value

/-- The text of a constant. -/
def Global.contents (g : Global) : String := Text.decodeLossy g.bytes

/-- The text of the constant that a value has to point to. There is nothing of a constant that is
    not in the module. -/
def Module.constantText (m : Module) : Value → Except RunError String
  | .pointer (.global i) =>
    match m.globals[i]? with
    | some g => .ok g.contents
    | none => .error (.typeMismatch .stringPointer .void)
  | v => .error (.typeMismatch .stringPointer v.ty)

end Straightline
