import Straightline.Proofs.Emission.Changes
import Straightline.Proofs.Emission.Commands
import Straightline.Proofs.Ir.Building

/-!
# Assembling the module

A compilation keeps the parts that its module is made of: the body of `main`, the constants, and
whether `printf` is declared. Here the module itself is kept, and every step goes through the
operations of modules.

* `Assembly` is a program under construction with its module, and `Assembling` is a step of it.
  Constants come from `Module.addGlobal`, functions from `Module.addFunction`, blocks from
  `Module.appendBlock`, instructions from `Module.emit`, and `printf` is looked for with
  `Module.function?` before it is added.
* `Compilation.assembly` is the assembly that a compilation stands for. Its module is
  `Compilation.module`.
* `Assembles x y` says that a step `x` of a compilation does what a step `y` of an assembly does.
  There is one `assembles_` lemma for each step, and `start_eq` is about the beginning.
* `foldl_command_assembly`: so commands in a row lead to the same module, and
  `exists_script_of_compile`: the module of a script is assembled from its steps.
-/

namespace Straightline

/-- A program under construction and its module. Instructions are added at `cursor`, and `printf` is
    the function that prints, once it was asked for. -/
structure Assembly where
  options : Options
  module : Module
  cursor : Cursor
  printf : Option Nat := none
  interner : Interner := {}
  slots : SlotTable := {}
  log : Array Event := #[.entryInitialized options.moduleName]

/-- A module with a function `main` that has one block, and a cursor in that block. -/
def Assembly.start (options : Options) : Except EmitError Assembly := do
  let empty : Module := { name := options.moduleName }
  let (entry, module) := empty.addFunction ⟨mainPrototype, some {}⟩
  let (block, module) ← (module.appendBlock entry "entry").mapError .build
  return { options, module, cursor := ⟨entry, block⟩ }

/-- The type of an operand in the function that code is added to. -/
def Assembly.typeOf (a : Assembly) (value : Operand) : Ty :=
  match (a.module.functions[a.cursor.function]?).bind (·.body) with
  | some b => b.typeOf value
  | none => .void

/-- A step of an assembly. It changes the assembly whether it fails or not. -/
abbrev Assembling := ExceptT EmitError (StateM Assembly)

namespace Assembling

/-- Add an instruction at the cursor. -/
def instruction (kind : Kind) (hint : String) : Assembling Operand := fun a =>
  match a.module.emit a.cursor kind hint with
  | .ok (i, module) => (.ok (.inst i), { a with module })
  | .error e => (.error (.build e), a)

/-- Add a constant. -/
def constant (bytes : ByteArray) : Assembling Operand :=
  modifyGet fun a =>
    (.global (a.module.addGlobal bytes).1, { a with module := (a.module.addGlobal bytes).2 })

/-- Report an event. -/
def report (e : Event) : Assembling Unit := modify fun a => { a with log := a.log.push e }

/-- The slot of a name that is not registered yet. -/
def allocate (name : String) (symbol : Nat) : Assembling (Nat × Slot) := do
  let ptr ← instruction (.alloca .double) name
  let i ← modifyGet fun a =>
    ((a.slots.register symbol ptr).1, { a with slots := (a.slots.register symbol ptr).2 })
  report (.slotAllocated name)
  return (i, { symbol, ptr })

/-- The index of a variable's slot, and the slot. A new name gets a slot. -/
def resolve (name : String) : Assembling (Nat × Slot) := do
  let symbol ← modifyGet fun a =>
    ((a.interner.intern name).1, { a with interner := (a.interner.intern name).2 })
  let a ← get
  match (a.slots.lookup? symbol).bind fun i => (a.slots.get? i).map (i, ·) with
  | some found => return found
  | none => allocate name symbol

/-- The operand as a double, if it is the result of a comparison; any other operand as it is. -/
def asDouble (value : Operand) : Assembling Operand := do
  if (← get).typeOf value = .i1 then instruction (.widen value) "booltmp" else return value

/-- Store to a slot. -/
def store (slot : Nat) (value ptr : Operand) : Assembling Unit := do
  let _ ← instruction (.store value ptr) ""
  modify fun a => { a with slots := a.slots.markWritten slot }

/-- Store a value to a variable. -/
def write (name : String) (value : Operand) : Assembling Unit := do
  let (i, slot) ← resolve name
  let value ← asDouble value
  store i value slot.ptr

/-- Follow the policy for a slot that is about to be read and may be unwritten. -/
def prepareRead (name : String) (i : Nat) (slot : Slot) : Assembling Unit := do
  if slot.written || slot.warned then return ()
  match (← get).options.reads with
  | .preserve =>
    report (.readBeforeWrite name)
    modify fun a => { a with slots := a.slots.markWarned i }
  | .zeroInit =>
    report (.zeroInitialized name)
    store i (.double Double.zero) slot.ptr
  | .error => throw (.uninitializedRead name)

/-- Load the value of a variable. -/
def read (name : String) : Assembling Operand := do
  let (i, slot) ← resolve name
  prepareRead name i slot
  instruction (.load .double slot.ptr) name

/-- Apply an operator. An operator without an instruction is refused before anything is added. -/
def apply (lhs rhs : Operand) (op : BinaryOperator) : Assembling Operand := do
  match op.instruction? with
  | none => throw (.unsupportedOperator op.symbol)
  | some (kind, hint) =>
    let lhs ← asDouble lhs
    let rhs ← asDouble rhs
    instruction (kind lhs rhs) hint

/-- Apply the operator that is written so. -/
def binaryOp (lhs rhs : Operand) (symbol : String) : Assembling Operand :=
  match BinaryOperator.ofSymbol? symbol with
  | some op => apply lhs rhs op
  | none => throw (.unsupportedOperator symbol)

/-- Find `printf` in the module by its name, or declare it. -/
def findPrintf : Assembling Nat := do
  match (← get).module.function? printfPrototype.name with
  | some f => return f
  | none =>
    report .printfDeclared
    modifyGet fun a => ((a.module.addFunction ⟨printfPrototype, none⟩).1,
      { a with module := (a.module.addFunction ⟨printfPrototype, none⟩).2 })

/-- The function that prints. It is looked for only once. -/
def declarePrintf : Assembling Nat := do
  match (← get).printf with
  | some f => return f
  | none =>
    let f ← findPrintf
    modify fun a => { a with printf := some f }
    return f

/-- Print a value with a format, which becomes a constant of its own. -/
def printFormatted (format : String) (value : Operand) : Assembling Operand := do
  let f ← declarePrintf
  let format ← constant format.toByteArray
  instruction (.call f [format, value]) "printfCall"

/-- Print a text and a newline. -/
def printString (text : String) : Assembling Operand := do
  let text ← constant text.toByteArray
  printFormatted "%s\n" text

/-- Print a number and a newline. -/
def printNumber (value : Operand) : Assembling Operand := do
  let value ← asDouble value
  printFormatted "%f\n" value

/-- Close the function that code is added to, which returns 0. -/
def finish : Assembling Unit := do
  let _ ← instruction (.ret (some (.i32 0))) ""
  report (.entryFinalized (← get).slots.size)

/-- What a call does, and what it hands out. -/
def call : Call Operand → Assembling (List Operand)
  | .constant value => return [.double value]
  | .read name => return [← read name]
  | .write name value => do
    write name value
    return []
  | .binaryOp lhs rhs symbol => return [← binaryOp lhs rhs symbol]
  | .apply lhs rhs op => return [← apply lhs rhs op]
  | .printNumber value => return [← printNumber value]
  | .printString text => return [← printString text]

/-- What a command does, and what it hands out. -/
def command : Command Operand → Assembling (List Operand)
  | .call made => call made
  | .resolve name => do
    let _ ← resolve name
    return []
  | .printFormatted format value => return [← printFormatted format value]

/-- What a step of a script amounts to, given the values on the stack, top first. -/
def step : Step → List Operand → Assembling (List Operand)
  | .push value, stack => return .double value :: stack
  | .read name, stack => return (← read name) :: stack
  | .apply symbol, rhs :: lhs :: stack => return (← binaryOp lhs rhs symbol.text) :: stack
  | .negate, value :: stack =>
    return (← apply (.double Double.zero) value (.arithmetic .sub)) :: stack
  | .write name, value :: stack => do
    write name value
    return stack
  | .printNumber, value :: stack => do
    let _ ← printNumber value
    return stack
  | .printString text, stack => do
    let _ ← printString text
    return stack
  | .apply _, stack => return stack
  | .negate, [] => return []
  | .write _, [] => return []
  | .printNumber, [] => return []

/-- Steps in a row, up to the first that fails. -/
def steps (made : List Step) (stack : List Operand) : Assembling (List Operand) :=
  made.foldlM (fun stack made => step made stack) stack

/-- All steps of a script, and the end of the program. -/
def script (source : String) : Assembling Unit := do
  let _ ← steps ((parse source).steps.map (·.step)) []
  finish

/-- `get >>= next` goes on from the assembly that it shows. -/
theorem get_bind {α : Type} (next : Assembly → Assembling α) (a : Assembly) :
    (get >>= next) a = next a a := rfl

end Assembling

/-! ### The module of a compilation -/

namespace Compilation

/-- The assembly that a compilation stands for. Code is added to the first block of `main`, which is
    the first function, and `printf` is the second. -/
def assembly (c : Compilation) : Assembly where
  options := c.options
  module := c.module
  cursor := ⟨0, 0⟩
  printf := if c.declaresPrintf then some 1 else none
  interner := c.interner
  slots := c.slots
  log := c.log

/-- `Module.setBody` of the first function is another body of `main`. -/
theorem setBody_module (c : Compilation) (b : Body) :
    c.module.setBody 0 b = { c with main := b }.module := by
  unfold Module.setBody module functions
  cases c.declaresPrintf <;> rfl

/-- `Module.emit` at the end of `main` is `Body.emit` at the end of its first block. -/
theorem emit_module (c : Compilation) (kind : Kind) (hint : String) :
    c.module.emit ⟨0, 0⟩ kind hint =
      (fun r => (r.1, { c with main := r.2 }.module)) <$>
        c.main.emit 0 mainPrototype.ret c.prototype? kind hint := by
  have hprototype : c.module.prototype? = c.prototype? := funext c.prototype?_module
  unfold Module.emit
  have hmain : c.module.functions[0]? = _ := c.getElem?_functions_zero
  simp only [hmain, hprototype]
  rcases c.main.emit 0 mainPrototype.ret c.prototype? kind hint with e | ⟨i, b⟩
  · rfl
  · exact congrArg (fun m => Except.ok (i, m)) (c.setBody_module b)

/-- `Module.addGlobal` numbers a constant by its position. -/
theorem addGlobal_module (c : Compilation) (bytes : ByteArray) :
    c.module.addGlobal bytes =
      (c.constants.size, { c with constants := c.constants.push bytes }.module) := by
  have hsize : c.module.globals.size = c.constants.size := Array.size_mapIdx
  have hpush : c.module.globals.push ⟨c.constants.size, bytes⟩ =
      (c.constants.push bytes).mapIdx Global.mk := Array.mapIdx_push.symm
  simp only [Module.addGlobal, hsize, hpush]
  rfl

/-- A name leads to the functions of a compilation as to those that `addFunction` added. -/
theorem indexed_module (c : Compilation) : c.module.Indexed := by
  have hmain := (Module.indexed_empty c.options.moduleName).addFunction ⟨mainPrototype, some c.main⟩
  unfold module functions
  cases c.declaresPrintf with
  | false => exact hmain
  | true => exact hmain.addFunction ⟨printfPrototype, none⟩

/-- `function?` finds no `printf` as long as it is not declared. -/
theorem function?_printf_module {c : Compilation} (h : c.declaresPrintf = false) :
    c.module.function? printfPrototype.name = none := by
  rw [Option.eq_none_iff_forall_ne_some]
  intro i hi
  obtain ⟨⟨f, hf, hname⟩, -⟩ := (c.indexed_module _ i).mp hi
  -- Before the declaration `main` is the only function.
  have hfunctions : c.module.functions = #[⟨mainPrototype, some c.main⟩] := by
    unfold module functions
    rw [h]
    rfl
  rw [hfunctions, Array.getElem?_singleton] at hf
  split at hf
  · obtain rfl := Option.some.inj hf
    exact absurd (show mainPrototype.name = printfPrototype.name from hname) (by decide)
  · cases hf

/-- `Module.addFunction` adds `printf` as the second function. -/
theorem addFunction_module {c : Compilation} (h : c.declaresPrintf = false) :
    c.module.addFunction ⟨printfPrototype, none⟩ =
      (1, { c with declaresPrintf := true }.module) := by
  unfold module functions
  rw [h]
  rfl

end Compilation

/-! ### Steps that do the same -/

open Assembling

/-- `Assembles x y` says that `x` on a compilation does what `y` does on its assembly. -/
def Assembles {α : Type} (x : Emit α) (y : Assembling α) : Prop :=
  ∀ c : Compilation, y c.assembly = ((x c).1, (x c).2.assembly)

section

variable {α β : Type}

/-- `pure a` does nothing to either. -/
theorem assembles_pure (a : α) : Assembles (pure a) (pure a) := fun _ => rfl

/-- `throw e` does nothing to either. -/
theorem assembles_throw (e : EmitError) : Assembles (throw e : Emit α) (throw e) := fun _ => rfl

/-- If `x` does what `y` does and `f a` what `g a` does, then `x >>= f` does what `y >>= g` does. -/
theorem Assembles.bind {x : Emit α} {y : Assembling α} {f : α → Emit β} {g : α → Assembling β}
    (h : Assembles x y) (hf : ∀ a, Assembles (f a) (g a)) : Assembles (x >>= f) (y >>= g) := by
  intro c
  have hy := h c
  rcases hx : x c with ⟨e | a, c₁⟩
  · rw [hx] at hy
    rw [bind_of_error hx, bind_of_error hy]
  · rw [hx] at hy
    rw [bind_of_ok hx, bind_of_ok hy]
    exact hf a c₁

/-- Steps that look at what was built so far do the same if they do with what each of them sees. -/
theorem assembles_get_bind {f : Compilation → Emit α} {g : Assembly → Assembling α}
    (h : ∀ c, Assembles (f c) (g c.assembly)) : Assembles (get >>= f) (get >>= g) := fun c => h c c

/-- A change of a compilation does what a change of the assembly does if they commute with
    `assembly`. -/
theorem assembles_modify {f : Compilation → Compilation} {g : Assembly → Assembly}
    (h : ∀ c : Compilation, g c.assembly = (f c).assembly) : Assembles (modify f) (modify g) :=
  fun c => congrArg (fun a : Assembly => (Except.ok (ε := EmitError) (), a)) (h c)

/-- The same for changes that give a result. -/
theorem assembles_modifyGet {f : Compilation → α × Compilation} {g : Assembly → α × Assembly}
    (h : ∀ c : Compilation, g c.assembly = ((f c).1, (f c).2.assembly)) :
    Assembles (modifyGet f) (modifyGet g) :=
  fun c => congrArg (fun r : α × Assembly => (Except.ok (ε := EmitError) r.1, r.2)) (h c)

end

/-- `Assembly.start` gives the assembly of a new compilation: `main` is added to a module without
    functions, and a block to `main`. -/
theorem start_eq (options : Options) :
    Assembly.start options = .ok ({ options } : Compilation).assembly := rfl

/-- The type of an operand in the function at the cursor is its type in `main`. -/
theorem typeOf_assembly (c : Compilation) (value : Operand) :
    c.assembly.typeOf value = c.main.typeOf value := by
  have hmain : (c.assembly.module.functions[c.assembly.cursor.function]?).bind (·.body) =
      some c.main := by
    rw [show c.assembly.module.functions[c.assembly.cursor.function]? = _ from
      c.getElem?_functions_zero]
    rfl
  rw [Assembly.typeOf, hmain]

/-- `Emit.instruction` does what `Module.emit` does at the cursor. -/
theorem assembles_instruction (kind : Kind) (hint : String) :
    Assembles (Emit.instruction kind hint) (instruction kind hint) := by
  intro c
  have hemit : c.assembly.module.emit c.assembly.cursor kind hint = _ := c.emit_module kind hint
  unfold Emit.instruction instruction
  rw [hemit]
  rcases c.main.emit 0 mainPrototype.ret c.prototype? kind hint with e | ⟨i, b⟩ <;> rfl

/-- `Emit.constant` does what `Module.addGlobal` does. -/
theorem assembles_constant (bytes : ByteArray) :
    Assembles (Emit.constant bytes) (constant bytes) := by
  refine assembles_modifyGet fun c => ?_
  rw [show c.assembly.module.addGlobal bytes = _ from c.addGlobal_module bytes]
  rfl

theorem assembles_report (e : Event) : Assembles (Emit.report e) (report e) :=
  assembles_modify fun _ => rfl

theorem assembles_allocate (name : String) (symbol : Nat) :
    Assembles (Emit.allocate name symbol) (allocate name symbol) :=
  (assembles_instruction _ _).bind fun _ => (assembles_modifyGet fun _ => rfl).bind fun _ =>
    (assembles_report _).bind fun _ => assembles_pure _

/-- `Emit.resolve` and `resolve` use the same tables. -/
theorem assembles_resolve (name : String) : Assembles (Emit.resolve name) (resolve name) := by
  refine (assembles_modifyGet fun _ => rfl).bind fun symbol => assembles_get_bind fun c => ?_
  have hslots : c.assembly.slots = c.slots := rfl
  simp only [hslots]
  cases (c.slots.lookup? symbol).bind fun i => (c.slots.get? i).map (i, ·) with
  | some found => exact assembles_pure found
  | none => exact assembles_allocate name symbol

/-- `Emit.asDouble` and `asDouble` see the same type of an operand. -/
theorem assembles_asDouble (value : Operand) :
    Assembles (Emit.asDouble value) (asDouble value) := by
  refine assembles_get_bind fun c => ?_
  rw [typeOf_assembly]
  split
  · exact assembles_instruction _ _
  · exact assembles_pure value

theorem assembles_store (slot : Nat) (value ptr : Operand) :
    Assembles (Emit.store slot value ptr) (store slot value ptr) :=
  (assembles_instruction _ _).bind fun _ => assembles_modify fun _ => rfl

theorem assembles_write (name : String) (value : Operand) :
    Assembles (Emit.write name value) (write name value) :=
  (assembles_resolve name).bind fun _ => (assembles_asDouble value).bind fun _ =>
    assembles_store _ _ _

/-- `Emit.prepareRead` and `prepareRead` follow the same policy. -/
theorem assembles_prepareRead (name : String) (i : Nat) (slot : Slot) :
    Assembles (Emit.prepareRead name i slot) (prepareRead name i slot) := by
  unfold Emit.prepareRead prepareRead
  split
  · exact assembles_pure ()
  · refine assembles_get_bind fun c => ?_
    have hoptions : c.assembly.options = c.options := rfl
    simp only [hoptions]
    cases c.options.reads with
    | preserve => exact (assembles_report _).bind fun _ => assembles_modify fun _ => rfl
    | zeroInit => exact (assembles_report _).bind fun _ => assembles_store _ _ _
    | error => exact assembles_throw _

theorem assembles_read (name : String) : Assembles (Emit.read name) (read name) :=
  (assembles_resolve name).bind fun _ => (assembles_prepareRead _ _ _).bind fun _ =>
    assembles_instruction _ _

theorem assembles_apply (lhs rhs : Operand) (op : BinaryOperator) :
    Assembles (Emit.apply lhs rhs op) (apply lhs rhs op) := by
  unfold Emit.apply apply
  cases op.instruction? with
  | none => exact assembles_throw _
  | some found =>
    exact (assembles_asDouble lhs).bind fun _ => (assembles_asDouble rhs).bind fun _ =>
      assembles_instruction _ _

theorem assembles_binaryOp (lhs rhs : Operand) (symbol : String) :
    Assembles (Emit.binaryOp lhs rhs symbol) (binaryOp lhs rhs symbol) := by
  unfold Emit.binaryOp binaryOp
  cases BinaryOperator.ofSymbol? symbol with
  | none => exact assembles_throw _
  | some op => exact assembles_apply lhs rhs op

/-- `Emit.declarePrintf` and then 1 is what `declarePrintf` does: `printf` was asked for before, or
    `function?` does not find it and `addFunction` adds it as the second function. -/
theorem assembles_declarePrintf :
    Assembles (Emit.declarePrintf >>= fun _ => pure 1) declarePrintf := by
  intro c
  cases h : c.declaresPrintf with
  -- It was asked for before.
  | true =>
    have hdeclared : Emit.declarePrintf c = (.ok (), c) := by
      rw [Emit.declarePrintf, Emit.get_bind, if_pos h]
      rfl
    have hprintf : c.assembly.printf = some 1 := if_pos h
    rw [bind_of_ok hdeclared]
    rw [declarePrintf, Assembling.get_bind, hprintf]
    rfl
  -- It is not found, so it is added.
  | false =>
    have hdeclared : Emit.declarePrintf c =
        (.ok (), { c with declaresPrintf := true, log := c.log.push .printfDeclared }) := by
      rw [Emit.declarePrintf, Emit.get_bind, if_neg (by rw [h]; decide)]
      rfl
    have hprintf : c.assembly.printf = none := if_neg (by rw [h]; decide)
    have hfind : findPrintf c.assembly = (.ok 1, { c.assembly with
        module := { c with declaresPrintf := true }.module,
        log := c.log.push .printfDeclared }) := by
      rw [findPrintf, Assembling.get_bind,
        show c.assembly.module.function? printfPrototype.name = none from
        Compilation.function?_printf_module h]
      show (Except.ok (ε := EmitError) (c.module.addFunction ⟨printfPrototype, none⟩).1,
        { c.assembly with module := (c.module.addFunction ⟨printfPrototype, none⟩).2,
                          log := c.log.push .printfDeclared }) = _
      rw [Compilation.addFunction_module h]
    rw [bind_of_ok hdeclared]
    rw [declarePrintf, Assembling.get_bind, hprintf]
    exact (bind_of_ok hfind).trans rfl

/-- The function that `Emit.printFormatted` calls is the one that `declarePrintf` gives. -/
theorem assembles_printFormatted (format : String) (value : Operand) :
    Assembles (Emit.printFormatted format value) (printFormatted format value) := by
  have hcall : Emit.printFormatted format value =
      (Emit.declarePrintf >>= fun _ => pure 1) >>= fun f =>
        Emit.constant format.toByteArray >>= fun format =>
          Emit.instruction (.call f [format, value]) "printfCall" := by
    rw [bind_assoc]
    rfl
  rw [hcall]
  exact assembles_declarePrintf.bind fun _ => (assembles_constant _).bind fun _ =>
    assembles_instruction _ _

theorem assembles_printString (text : String) :
    Assembles (Emit.printString text) (printString text) :=
  (assembles_constant _).bind fun _ => assembles_printFormatted _ _

theorem assembles_printNumber (value : Operand) :
    Assembles (Emit.printNumber value) (printNumber value) :=
  (assembles_asDouble value).bind fun _ => assembles_printFormatted _ _

theorem assembles_finish : Assembles Emit.finish finish :=
  (assembles_instruction _ _).bind fun _ => assembles_get_bind fun _ => assembles_report _

/-! ### Commands and scripts -/

/-- `Call.emit` does to a compilation what `call` does to its assembly, and hands out the same. -/
theorem assembles_call (made : Call Operand) : Assembles made.emit (call made) := by
  cases made with
  | constant value => exact assembles_pure _
  | read name => exact (assembles_read name).bind fun _ => assembles_pure _
  | write name value => exact (assembles_write name value).bind fun _ => assembles_pure _
  | binaryOp lhs rhs symbol =>
    exact (assembles_binaryOp lhs rhs symbol).bind fun _ => assembles_pure _
  | apply lhs rhs op => exact (assembles_apply lhs rhs op).bind fun _ => assembles_pure _
  | printNumber value => exact (assembles_printNumber value).bind fun _ => assembles_pure _
  | printString text => exact (assembles_printString text).bind fun _ => assembles_pure _

/-- `Command.emit` does to a compilation what `command` does to its assembly. -/
theorem assembles_command (given : Command Operand) : Assembles given.emit (command given) := by
  cases given with
  | call made => exact assembles_call made
  | resolve name => exact (assembles_resolve name).bind fun _ => assembles_pure _
  | printFormatted format value =>
    exact (assembles_printFormatted format value).bind fun _ => assembles_pure _

/-- Commands in a row, whether they fail or not, lead from the assembly of `c` to the assembly of
    what they make of `c`. -/
theorem foldl_command_assembly (commands : List (Command Operand)) (c : Compilation) :
    commands.foldl (fun a given => (command given a).2) c.assembly =
      (commands.foldl (fun c given => (given.emit c).2) c).assembly := by
  induction commands generalizing c with
  | nil => rfl
  | cons given commands ih =>
    rw [List.foldl_cons, List.foldl_cons, assembles_command given c]
    exact ih _

/-- `Step.emit` does to a compilation what `step` does to its assembly. -/
theorem assembles_step (made : Step) (stack : List Operand) :
    Assembles (made.emit stack) (step made stack) := by
  cases made with
  | push value => exact assembles_pure _
  | read name => exact (assembles_read name).bind fun _ => assembles_pure _
  -- Without its operands on the stack a step does nothing, on either side.
  | apply symbol =>
    match stack with
    | [] => exact assembles_pure _
    | [x] => exact assembles_pure _
    | y :: x :: stack => exact (assembles_binaryOp x y _).bind fun _ => assembles_pure _
  | negate =>
    match stack with
    | [] => exact assembles_pure _
    | x :: stack => exact (assembles_apply _ x _).bind fun _ => assembles_pure _
  | write name =>
    match stack with
    | [] => exact assembles_pure _
    | x :: stack => exact (assembles_write name x).bind fun _ => assembles_pure _
  | printNumber =>
    match stack with
    | [] => exact assembles_pure _
    | x :: stack => exact (assembles_printNumber x).bind fun _ => assembles_pure _
  | printString text => exact (assembles_printString text).bind fun _ => assembles_pure _

/-- `Step.emitList` does to a compilation what `steps` does to its assembly. -/
theorem assembles_steps (made : List Step) (stack : List Operand) :
    Assembles (Step.emitList made stack) (steps made stack) := by
  induction made generalizing stack with
  | nil => exact assembles_pure stack
  | cons first made ih =>
    rw [Step.emitList, List.foldlM_cons]
    exact (assembles_step first stack).bind fun stack => ih stack

/-- The module that `compile` gives is the one that the steps of the script assemble. -/
theorem exists_script_of_compile {source : String} {options : Options} {m : Module}
    (h : compile source options = .ok m) :
    ∃ a a', Assembly.start options = .ok a ∧ script source a = (.ok (), a') ∧ a'.module = m := by
  have hassembles := (assembles_steps ((parse source).steps.map (·.step)) []).bind
    fun _ => assembles_finish
  rcases hlist : Step.emitList ((parse source).steps.map (·.step)) [] { options } with
    ⟨e | stack, c⟩
  · -- The module exists, so neither a step nor the reading nor `finish` failed.
    obtain ⟨span, hinto⟩ := compileInto_of_error hlist
    cases (compile_of_error hinto).symm.trans h
  · have hinto := compileInto_of_ok hlist
    cases houtcome : (parse source).outcome with
    | error e =>
      rw [houtcome] at hinto
      cases (compile_of_error hinto).symm.trans h
    | ok done =>
      rw [houtcome] at hinto
      rcases hfinish : Emit.finish c with ⟨e | done, c'⟩
      · cases (compile_of_finish_error hinto hfinish).symm.trans h
      · obtain rfl := Except.ok.inj ((compile_of_finish hinto hfinish).symm.trans h)
        refine ⟨_, c'.assembly, start_eq options, ?_, rfl⟩
        exact (hassembles { options }).trans (by rw [bind_of_ok hlist, hfinish])

end Straightline
