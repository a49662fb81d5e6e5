import Std.Data.TreeMap
import Straightline.Execution.Printf

/-!
# Running a module

Code runs straight from the start of a function's first block to its return. Results of instructions
and contents of stack slots are kept under the index of their instruction.

* `Machine.step` runs one instruction and `Machine.run` the instructions of a block.
* `Module.run` runs a function of a module and gives its `Execution`.
-/

namespace Straightline

/-- The state of running code. -/
structure Machine where
  /-- The results of the instructions run so far. -/
  registers : Std.TreeMap Nat Value := {}
  /-- The contents of the slots that were stored to. -/
  memory : Std.TreeMap Nat Value := {}
  /-- What was printed. -/
  output : String := ""

namespace Machine

/-- The value of an operand. Only instructions that ran, and have a result, have one. -/
def eval (s : Machine) : Operand → Except RunError Value
  | .double d => .ok (.double d)
  | .i32 n => .ok (.int n)
  | .global i => .ok (.pointer (.global i))
  | .inst i =>
    match s.registers[i]? with
    | some v => .ok v
    | none => .error (.typeMismatch .computedValue .void)

def evalDouble (s : Machine) (operand : Operand) : Except RunError Double := do
  (← s.eval operand).asDouble

def evalSlot (s : Machine) (operand : Operand) : Except RunError Nat := do
  (← s.eval operand).asSlot

/-- Keep the result of an instruction. -/
def setRegister (s : Machine) (i : Nat) (v : Value) : Machine :=
  { s with registers := s.registers.insert i v }

/-- The contents of a slot. -/
def load (s : Machine) (b : Body) (slot : Nat) : Except RunError Value :=
  match s.memory[slot]? with
  | some v => .ok v
  | none => .error (.uninitializedLoad ((b.instructions[slot]?.bind (·.name)).getD ""))

/-- Whether a function can be called: `printf`, defined elsewhere, is the only one. -/
def isCallable (f : Function) : Bool := f.name = "printf" && f.isDeclaration

/-- Call a function. The result is the number of bytes written. -/
def call (s : Machine) (m : Module) (callee : Nat) (args : List Operand) :
    Except RunError (Value × Machine) := do
  match m.functions[callee]? with
  | none => .error (.unsupportedCall "")
  | some f =>
    if isCallable f then
      -- All arguments are evaluated before any text is put together.
      let text ← m.printf (← args.mapM s.eval)
      return (.int (Int32.ofNat text.utf8ByteSize), { s with output := s.output ++ text })
    else .error (.unsupportedCall f.name)

/-- What an instruction leads to. -/
inductive Outcome where
  | next (s : Machine)
  | returned (value : Option Value)

/-- Run the instruction of index `i`. -/
def step (s : Machine) (m : Module) (b : Body) (i : Nat) : Kind → Except RunError Outcome
  -- A slot is named by the instruction that allocates it, and has no value before a store.
  | .alloca _ => .ok (.next (s.setRegister i (.pointer (.slot i))))
  | .load _ ptr => do
    let v ← s.load b (← s.evalSlot ptr)
    return .next (s.setRegister i v)
  | .store value ptr => do
    let v ← s.eval value
    let slot ← s.evalSlot ptr
    return .next { s with memory := s.memory.insert slot v }
  | .binary op lhs rhs => do
    let x ← s.evalDouble lhs
    let y ← s.evalDouble rhs
    return .next (s.setRegister i (.double (op.eval x y)))
  | .compare condition lhs rhs => do
    let x ← s.evalDouble lhs
    let y ← s.evalDouble rhs
    return .next (s.setRegister i (.bool (condition.eval x y)))
  | .widen value => do
    let d ← (← s.eval value).widen
    return .next (s.setRegister i (.double d))
  | .call callee args => do
    let (v, s) ← s.call m callee args
    return .next (s.setRegister i v)
  | .ret none => .ok (.returned none)
  | .ret (some value) => do
    return .returned (some (← s.eval value))

/-- Run instructions until one returns. `label` names their block, which has to return. -/
def run (m : Module) (b : Body) (label : String) :
    List (Nat × Instruction) → Machine → Except RunError (Option Value × Machine)
  -- A block that was built ends in a `ret`, so only the end of an open block is met here.
  | [], _ => .error (.missingTerminator label)
  | (i, inst) :: rest, s => do
    match ← s.step m b i inst.kind with
    | .next s => run m b label rest s
    | .returned value => return (value, s)

/-- The named slots that were stored to with their contents, in the order of the names. -/
def slots (s : Machine) (b : Body) : List (String × Value) :=
  let named := s.memory.toList.filterMap fun (i, v) =>
    (b.instructions[i]?.bind (·.name)).map (·, v)
  named.mergeSort fun x y => x.1 ≤ y.1

end Machine

/-- The result of a run. -/
structure Execution where
  exitCode : Int32
  stdout : String
  /-- The final contents of the stack slots that were stored to, by name and in the order of the
      names. -/
  slots : List (String × Value)
  deriving DecidableEq

/-- The exit code that a returned value stands for. -/
def exitCode : Option Value → Except RunError Int32
  | none => .ok 0
  | some (.int n) => .ok n
  | some v => .error (.typeMismatch .exitCode v.ty)

/-- Run the first block of the function of a name. -/
def Module.run (m : Module) (name : String) : Except RunError Execution :=
  match (m.function? name).bind (m.functions[·]?) |>.bind (·.body) with
  | none => .error (.noEntry name)
  | some b =>
    match b.blocks[0]? with
    | none => .error (.noEntry name)
    | some block => do
      let (value, s) ← Machine.run m b block.label (b.contents block) {}
      return { exitCode := ← exitCode value, stdout := s.output, slots := s.slots b }

end Straightline
