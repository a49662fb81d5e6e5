import Straightline.Double.Constant
import Straightline.Ir.Module

/-!
# Modules as text

A module is written in textual LLVM IR with opaque pointers, line by line.

* `escapeBytes` writes bytes between quotes, and `localName` a name of a function's own.
* `Module.lines` are the lines of a module and `Module.text` is the whole text.
-/

namespace Straightline

/-! ### Bytes and names -/

/-- Whether a byte stands for itself between quotes: printable ASCII without the quote and the
    backslash. -/
def isPlainByte (b : UInt8) : Bool := 0x20 ≤ b && b ≤ 0x7E && b != 0x22 && b != 0x5C

/-- A byte between quotes: itself, or a backslash and two hexadecimal digits. -/
def escapeByte (b : UInt8) : List Char :=
  if isPlainByte b then [Char.ofNat b.toNat] else '\\' :: Text.hexDigits 2 b.toNat

/-- Bytes as they stand between quotes. -/
def escapeBytes (bytes : ByteArray) : String := String.ofList (bytes.data.toList.flatMap escapeByte)

/-- The characters of a name that needs no quotes: ASCII letters and digits and `-`, `$`, `.`,
    `_`. -/
def isNameChar (c : Char) : Bool := c.isAlphanum || c = '-' || c = '$' || c = '.' || c = '_'

/-- Whether a name needs no quotes: it is not empty, has name characters only, and does not start
    with a digit. -/
def isBareName : List Char → Bool
  | [] => false
  | c :: cs => isNameChar c && !c.isDigit && cs.all isNameChar

/-- A local name, quoted unless it is bare. -/
def localName (name : String) : String :=
  if isBareName name.toList then "%" ++ name
  else "%\"" ++ escapeBytes name.toByteArray ++ "\""

/-! ### Prototypes -/

namespace Prototype

/-- The types of the parameters, with dots behind them if more arguments may follow. -/
def paramsText (p : Prototype) : String :=
  ", ".intercalate (p.params.map Ty.text ++ if p.variadic then ["..."] else [])

/-- The type of the function as a call states it: what it returns and, only if it is variadic, its
    parameters. -/
def calleeText (p : Prototype) : String :=
  if p.variadic then p.ret.text ++ " (" ++ p.paramsText ++ ")" else p.ret.text

/-- The line of a declaration and the start of a definition, behind its keyword. -/
def text (p : Prototype) : String := p.ret.text ++ " @" ++ p.name ++ "(" ++ p.paramsText ++ ")"

end Prototype

/-! ### Instructions -/

namespace Body

/-- An operand without its type. A constant is written by the number it has in the module. -/
def operandText (b : Body) (m : Module) : Operand → String
  | .double d => String.ofList d.constantText
  | .i32 n => Decimal.intText n.toInt
  | .global i =>
    match m.globals[i]? with
    | some g => "@" ++ Decimal.text g.number
    | none => "<unknown>"
  | .inst i =>
    match b.instructions[i]?.bind (·.name) with
    | some name => localName name
    | none => "<unnamed>"

/-- An operand behind its type. -/
def typedText (b : Body) (m : Module) (operand : Operand) : String :=
  (b.typeOf operand).text ++ " " ++ b.operandText m operand

/-- An alignment at the end of an instruction. -/
def alignText (ty : Ty) : String := ", align " ++ Decimal.text ty.align

/-- What an instruction does. -/
def kindText (b : Body) (m : Module) : Kind → String
  | .alloca ty => "alloca " ++ ty.text ++ alignText ty
  | .load ty ptr => "load " ++ ty.text ++ ", ptr " ++ b.operandText m ptr ++ alignText ty
  | .store value ptr =>
    "store " ++ b.typedText m value ++ ", ptr " ++ b.operandText m ptr ++ alignText (b.typeOf value)
  | .binary op lhs rhs =>
    op.opcode ++ " double " ++ b.operandText m lhs ++ ", " ++ b.operandText m rhs
  | .compare condition lhs rhs =>
    "fcmp " ++ condition.keyword ++ " double " ++ b.operandText m lhs ++ ", " ++ b.operandText m rhs
  | .widen value => "uitofp " ++ b.typedText m value ++ " to double"
  | .call callee args =>
    let target := match m.prototype? callee with
      | some p => p.calleeText ++ " @" ++ p.name
      | none => "<unknown>"
    "call " ++ target ++ "(" ++ ", ".intercalate (args.map (b.typedText m)) ++ ")"
  | .ret none => "ret " ++ Ty.void.text
  | .ret (some value) => "ret " ++ b.typedText m value

/-- The line of an instruction: its result, if it has a name, and what it does. -/
def instructionText (b : Body) (m : Module) (i : Instruction) : String :=
  let result := match i.name with
    | some name => localName name ++ " = "
    | none => ""
  "  " ++ result ++ b.kindText m i.kind

/-- The lines of a block: its label, then its instructions. -/
def blockLines (b : Body) (m : Module) (k : Block) : List String :=
  (k.label ++ ":") :: (b.contents k).map fun (_, i) => b.instructionText m i

end Body

/-! ### Modules -/

/-- The line of a constant. -/
def Global.text (g : Global) : String :=
  "@" ++ Decimal.text g.number ++ " = private unnamed_addr constant [" ++ Decimal.text g.size
    ++ " x i8] c\"" ++ escapeBytes g.bytes ++ "\\00\", align 1"

namespace Module

/-- The lines of a function: one for a declaration, else the blocks between braces. -/
def functionLines (m : Module) (f : Function) : List String :=
  match f.body with
  | none => ["declare " ++ f.prototype.text]
  | some b =>
    ("define " ++ f.prototype.text ++ " \x7b")
      :: b.blocks.toList.flatMap (b.blockLines m) ++ ["\x7d"]

/-- The two lines that name the module. -/
def headerLines (m : Module) : List String :=
  ["; ModuleID = '" ++ m.name ++ "'",
   "source_filename = \"" ++ escapeBytes m.name.toByteArray ++ "\""]

/-- The lines of the constants, behind a blank line if there are any. -/
def globalLines (m : Module) : List String :=
  if m.globals.isEmpty then [] else "" :: m.globals.toList.map Global.text

/-- All lines. Each function stands behind a blank line. -/
def lines (m : Module) : List String :=
  m.headerLines ++ m.globalLines ++ m.functions.toList.flatMap fun f => "" :: m.functionLines f

/-- The whole text; every line ends in a newline. -/
def text (m : Module) : String := String.join (m.lines.map (· ++ "\n"))

end Module

end Straightline
