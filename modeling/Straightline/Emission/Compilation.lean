import Straightline.Emission.Operator
import Straightline.Emission.Symbols
import Straightline.Ir.Builder
import Straightline.Log.Event

/-!
# Compilations

A compilation is a program under construction: the body of its `main`, its constants, and the
variables that have a slot. Steps only add to it, and a step that fails keeps what it already added.

* `Compilation.module` is the module built so far.
* `Emit` is a step; `resolve`, `write`, `read`, `apply`, `binaryOp` and the prints are the steps
  there are, and `finish` closes `main`.
-/

namespace Straightline

/-- What to do about a variable that is read before anything is stored to it. -/
inductive ReadPolicy where
  /-- Load whatever is there, with a warning once per variable. -/
  | preserve
  /-- Store `0.0` first. -/
  | zeroInit
  /-- Refuse. -/
  | error
  deriving DecidableEq

namespace ReadPolicy

/-- The policy as it is written in settings and arguments. -/
def text : ReadPolicy → String
  | preserve => "preserve"
  | zeroInit => "zero-init"
  | error => "error"

/-- The policy that is written so. -/
def ofText? : String → Option ReadPolicy
  | "preserve" => some preserve
  | "zero-init" => some zeroInit
  | "error" => some error
  | _ => none

@[simp] theorem ofText?_text (p : ReadPolicy) : ofText? p.text = some p := by
  cases p <;> rfl

end ReadPolicy

/-- What a compilation can be told. -/
structure Options where
  moduleName : String := "top"
  reads : ReadPolicy := .zeroInit
  deriving DecidableEq

/-- Why a step cannot be made. -/
inductive EmitError where
  | unsupportedOperator (symbol : String)
  | uninitializedRead (name : String)
  | build (cause : BuildError)
  deriving DecidableEq

/-- The wording of an error. -/
def EmitError.message : EmitError → String
  | unsupportedOperator symbol => "illegal binary operation `" ++ symbol ++ "`"
  | uninitializedRead name => "variable `" ++ name ++ "` is read before it is assigned"
  | build cause => cause.message

/-- A message as it is reported on a stream: on lines of its own, behind a blank one. -/
def errorReport (message : String) : String := "\n" ++ message ++ "\n"

/-- The function that a program starts in. -/
def mainPrototype : Prototype where
  name := "main"
  ret := .i32
  params := []
  variadic := false

/-- The function that prints, which is defined elsewhere. -/
def printfPrototype : Prototype where
  name := "printf"
  ret := .i32
  params := [.ptr]
  variadic := true

/-- A program under construction. Its functions are `main` and, behind it, `printf` if it is
    declared. -/
structure Compilation where
  options : Options
  /-- The constants; the position of one is its number. -/
  constants : Array ByteArray := #[]
  main : Body := ((default : Body).appendBlock "entry").2
  declaresPrintf : Bool := false
  interner : Interner := {}
  slots : SlotTable := {}
  log : Array Event := #[.entryInitialized options.moduleName]

namespace Compilation

/-! ### The module built so far -/

def functions (c : Compilation) : Array Function :=
  #[⟨mainPrototype, some c.main⟩] ++ if c.declaresPrintf then #[⟨printfPrototype, none⟩] else #[]

/-- The module built so far. -/
def module (c : Compilation) : Module where
  name := c.options.moduleName
  globals := c.constants.mapIdx Global.mk
  functions := c.functions

/-- What a call in `main` sees of the functions. -/
def prototype? (c : Compilation) : Nat → Option Prototype
  | 0 => some mainPrototype
  | 1 => if c.declaresPrintf then some printfPrototype else none
  | _ => none

/-- `prototype?` gives the prototypes of the functions of the module. -/
theorem prototype?_module (c : Compilation) (i : Nat) : c.module.prototype? i = c.prototype? i := by
  unfold Module.prototype? module functions prototype?
  rcases i with _ | _ | i <;> cases c.declaresPrintf <;> simp

/-- The variable that a slot belongs to. -/
def variableName? (c : Compilation) (slot : Nat) : Option String :=
  (c.slots.get? slot).bind fun s => c.interner.resolve? s.symbol

/-- The counts of slots, instructions, constants and declarations. -/
def counts (c : Compilation) : List Nat :=
  [c.slots.size, c.main.instructions.size, c.constants.size, c.module.declarationCount]

end Compilation

/-! ### Steps -/

/-- A step of a compilation. It changes the compilation whether it fails or not. -/
abbrev Emit := ExceptT EmitError (StateM Compilation)

namespace Emit

/-- Add an instruction to `main`. -/
def instruction (kind : Kind) (hint : String) : Emit Operand := fun c =>
  match c.main.emit 0 mainPrototype.ret c.prototype? kind hint with
  | .ok (i, b) => (.ok (.inst i), { c with main := b })
  | .error e => (.error (.build e), c)

/-- Add a constant. -/
def constant (bytes : ByteArray) : Emit Operand :=
  modifyGet fun c => (.global c.constants.size, { c with constants := c.constants.push bytes })

def report (e : Event) : Emit Unit := modify fun c => { c with log := c.log.push e }

/-- The slot of a name that is not registered yet. -/
def allocate (name : String) (symbol : Nat) : Emit (Nat × Slot) := do
  let ptr ← instruction (.alloca .double) name
  let i ← modifyGet fun c =>
    let (i, slots) := c.slots.register symbol ptr
    (i, { c with slots })
  report (.slotAllocated name)
  return (i, { symbol, ptr })

/-- The index of a variable's slot, and the slot. A new name gets a slot. -/
def resolve (name : String) : Emit (Nat × Slot) := do
  let symbol ← modifyGet fun c =>
    let (symbol, interner) := c.interner.intern name
    (symbol, { c with interner })
  let c ← get
  match (c.slots.lookup? symbol).bind fun i => (c.slots.get? i).map (i, ·) with
  | some found => return found
  | none => allocate name symbol

/-- The operand as a double, if it is the result of a comparison; any other operand as it is. -/
def asDouble (value : Operand) : Emit Operand := do
  if (← get).main.typeOf value = .i1 then instruction (.widen value) "booltmp" else return value

/-- Store to a slot. -/
def store (slot : Nat) (value ptr : Operand) : Emit Unit := do
  let _ ← instruction (.store value ptr) ""
  modify fun c => { c with slots := c.slots.markWritten slot }

/-- Store a value to a variable. -/
def write (name : String) (value : Operand) : Emit Unit := do
  let (i, slot) ← resolve name
  let value ← asDouble value
  store i value slot.ptr

/-- Follow the policy for a slot that is about to be read and may be unwritten. -/
def prepareRead (name : String) (i : Nat) (slot : Slot) : Emit Unit := do
  -- One notice for each variable, and none once it has a value.
  if slot.written || slot.warned then return ()
  match (← get).options.reads with
  | .preserve =>
    report (.readBeforeWrite name)
    modify fun c => { c with slots := c.slots.markWarned i }
  | .zeroInit =>
    report (.zeroInitialized name)
    store i (.double Double.zero) slot.ptr
  | .error => throw (.uninitializedRead name)

/-- Load the value of a variable. -/
def read (name : String) : Emit Operand := do
  let (i, slot) ← resolve name
  prepareRead name i slot
  instruction (.load .double slot.ptr) name

/-- Apply an operator. An operator without an instruction is refused before anything is added. -/
def apply (lhs rhs : Operand) (op : BinaryOperator) : Emit Operand := do
  match op.instruction? with
  | none => throw (.unsupportedOperator op.symbol)
  | some (kind, hint) =>
    -- Both operands are widened before the instruction, the left one first.
    let lhs ← asDouble lhs
    let rhs ← asDouble rhs
    instruction (kind lhs rhs) hint

/-- Apply the operator that is written so. -/
def binaryOp (lhs rhs : Operand) (symbol : String) : Emit Operand :=
  match BinaryOperator.ofSymbol? symbol with
  | some op => apply lhs rhs op
  | none => throw (.unsupportedOperator symbol)

/-- Make sure that `printf` is declared. -/
def declarePrintf : Emit Unit := do
  if (← get).declaresPrintf then return ()
  report .printfDeclared
  modify fun c => { c with declaresPrintf := true }

/-- Print a value with a format, which becomes a constant of its own. -/
def printFormatted (format : String) (value : Operand) : Emit Operand := do
  declarePrintf
  let format ← constant format.toByteArray
  instruction (.call 1 [format, value]) "printfCall"

/-- Print a text and a newline. -/
def printString (text : String) : Emit Operand := do
  let text ← constant text.toByteArray
  printFormatted "%s\n" text

/-- Print a number and a newline. -/
def printNumber (value : Operand) : Emit Operand := do
  let value ← asDouble value
  printFormatted "%f\n" value

/-- Close `main`, which returns 0. -/
def finish : Emit Unit := do
  let _ ← instruction (.ret (some (.i32 0))) ""
  report (.entryFinalized (← get).slots.size)

end Emit

end Straightline
