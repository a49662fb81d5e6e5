import Straightline.Ir.Module

/-!
# Building modules

Instructions are added one by one at the end of a block. An instruction is checked before anything
changes, so a failed step leaves the module as it was.

* `Body.check` says which operands an instruction takes and gives the type of its result.
* `Body.emit` adds an instruction to a block of a body, and `Module.emit` at a cursor.
* `Module.appendBlock` adds an empty block.
-/

namespace Straightline

/-- Why an instruction or a block cannot be added. -/
inductive BuildError where
  /-- The function is only declared. -/
  | noBody (function : String)
  | blockTerminated (label : String)
  | typeMismatch (opcode : String) (expected found : Ty)
  | arityMismatch (callee : String) (expected found : Nat)
  | noSuchFunction (index : Nat)
  | noSuchBlock (index : Nat)
  deriving DecidableEq

/-- The wording of an error. -/
def BuildError.message : BuildError → String
  | noBody f => "function `" ++ f ++ "` has no body to insert into"
  | blockTerminated label => "block `" ++ label ++ "` is already terminated"
  | typeMismatch opcode expected found =>
    "type mismatch in `" ++ opcode ++ "`: expected " ++ expected.text ++ ", found " ++ found.text
  | arityMismatch callee expected found =>
    "call to `" ++ callee ++ "` passes " ++ Decimal.text found ++ " arguments, signature needs "
      ++ Decimal.text expected
  | noSuchFunction i => "no function has the number " ++ Decimal.text i
  | noSuchBlock i => "no block has the number " ++ Decimal.text i

/-- A place to add instructions: the end of a block of a function. -/
structure Cursor where
  function : Nat
  block : Nat
  deriving DecidableEq

/-- Whether a call with this many arguments fits. A variadic function takes any number beyond its
    parameters. -/
def Prototype.admits (p : Prototype) (count : Nat) : Bool :=
  if p.variadic then p.params.length ≤ count else count = p.params.length

/-- The callee of a call with a fitting number of arguments. -/
def checkArity (prototype? : Nat → Option Prototype) (callee : Nat) (args : List Operand) :
    Except BuildError Prototype :=
  match prototype? callee with
  | none => .error (.noSuchFunction callee)
  | some p =>
    if p.admits args.length then .ok p
    else .error (.arityMismatch p.name p.params.length args.length)

namespace Body

/-- Require a type of an operand. -/
def expect (b : Body) (opcode : String) (operand : Operand) (ty : Ty) : Except BuildError Unit :=
  if b.typeOf operand = ty then .ok ()
  else .error (.typeMismatch opcode ty (b.typeOf operand))

/-- Require the types of the parameters of the arguments they stand for. -/
def expectAll (b : Body) (opcode : String) : List Operand → List Ty → Except BuildError Unit
  | operand :: operands, ty :: tys => do
    b.expect opcode operand ty
    b.expectAll opcode operands tys
  | _, _ => .ok ()

/-- The type of an instruction's result, if its operands fit. `ret` is what the function returns.
    Operands are checked from left to right, and a stored value may have any type. -/
def check (b : Body) (ret : Ty) (prototype? : Nat → Option Prototype) : Kind → Except BuildError Ty
  | .alloca _ => .ok .ptr
  | .load ty ptr => do
    b.expect "load" ptr .ptr
    return ty
  -- Only the address is checked: a value of any type can be stored.
  | .store _ ptr => do
    b.expect "store" ptr .ptr
    return .void
  | .binary op lhs rhs => do
    b.expect op.opcode lhs .double
    b.expect op.opcode rhs .double
    return .double
  | .compare _ lhs rhs => do
    b.expect "fcmp" lhs .double
    b.expect "fcmp" rhs .double
    return .i1
  | .widen value => do
    b.expect "uitofp" value .i1
    return .double
  | .call callee args => do
    let p ← checkArity prototype? callee args
    b.expectAll "call" args p.params
    return p.ret
  -- No check against `ret`: returning nothing is allowed from any function.
  | .ret none => .ok .void
  | .ret (some value) => do
    b.expect "ret" value ret
    return .void

end Body

/-- Whether the result of an instruction is named: a store and a return have none, and a call has
    one unless it returns `void`. -/
def Kind.isNamed (ty : Ty) : Kind → Bool
  | store .. => false
  | ret _ => false
  | call .. => ty ≠ .void
  | _ => true

namespace Body

/-- A fresh name for a result, if it has one. -/
def freshName (b : Body) (named : Bool) (hint : String) : Option String × NameSupply :=
  if named then
    let (name, names) := b.names.fresh hint
    (some name, names)
  else (none, b.names)

/-- Put an instruction at the end of the arena and of a block. -/
def push (b : Body) (block : Nat) (kind : Kind) (ty : Ty) (hint : String) : Body :=
  let (name, names) := b.freshName (kind.isNamed ty) hint
  { instructions := b.instructions.push ⟨kind, ty, name⟩
    blocks := b.blocks.modify block fun k =>
      { k with instructions := k.instructions.push b.instructions.size }
    names }

/-- Add an instruction at the end of a block, and give its index. -/
def emit (b : Body) (block : Nat) (ret : Ty) (prototype? : Nat → Option Prototype) (kind : Kind)
    (hint : String) : Except BuildError (Nat × Body) := do
  -- The operands are checked before the block.
  let ty ← b.check ret prototype? kind
  match b.blocks[block]? with
  | none => .error (.noSuchBlock block)
  | some k =>
    if b.isTerminated k then .error (.blockTerminated k.label)
    else .ok (b.instructions.size, b.push block kind ty hint)

/-- Add an empty block. Its label is made unique among all names of the body. -/
def appendBlock (b : Body) (label : String) : Nat × Body :=
  let (label, names) := b.names.fresh label
  (b.blocks.size, { b with blocks := b.blocks.push { label }, names })

end Body

namespace Module

/-- The module with another body for one of its functions. -/
def setBody (m : Module) (i : Nat) (b : Body) : Module :=
  { m with functions := m.functions.modify i fun f => { f with body := some b } }

/-- Add an instruction at a cursor, and give its index. A wrong number of arguments is reported
    before a missing body. -/
def emit (m : Module) (c : Cursor) (kind : Kind) (hint : String) :
    Except BuildError (Nat × Module) :=
  match m.functions[c.function]? with
  | none => .error (.noSuchFunction c.function)
  | some f =>
    match f.body, kind with
    | some b, kind => do
      let (i, b) ← b.emit c.block f.prototype.ret m.prototype? kind hint
      return (i, m.setBody c.function b)
    -- The arguments of a call are counted first, so that this error comes before the missing body.
    | none, .call callee args => do
      let _ ← checkArity m.prototype? callee args
      .error (.noBody f.name)
    | none, _ => .error (.noBody f.name)

/-- Add an empty block to a function, and give its index. -/
def appendBlock (m : Module) (function : Nat) (label : String) :
    Except BuildError (Nat × Module) :=
  match m.functions[function]? with
  | none => .error (.noSuchFunction function)
  | some f =>
    match f.body with
    | none => .error (.noBody f.name)
    | some b =>
      let (i, b) := b.appendBlock label
      .ok (i, m.setBody function b)

end Module

end Straightline
