import Std.Data.TreeMap
import Straightline.Ir.Instruction
import Straightline.Ir.NameSupply

/-!
# Modules

A module holds constant byte strings and functions; a function is a prototype and, unless it is only
declared, a body of blocks.

* `Body.typeOf` is the type of an operand inside a body.
* `Module.function?` looks a function up by name; the latest of that name counts.
-/

namespace Straightline

/-- A block: its label and, in order, the indices of its instructions in the arena of the body. -/
structure Block where
  label : String
  instructions : Array Nat := #[]
  deriving DecidableEq

/-- The body of a function. All blocks share one arena of instructions and one table of names. -/
structure Body where
  instructions : Array Instruction := #[]
  blocks : Array Block := #[]
  names : NameSupply := {}
  deriving DecidableEq, Inhabited

/-- What a caller sees of a function. -/
structure Prototype where
  name : String
  ret : Ty
  params : List Ty
  variadic : Bool
  deriving DecidableEq

/-- A function; without a body it is declared and defined elsewhere. -/
structure Function where
  prototype : Prototype
  body : Option Body
  deriving DecidableEq

/-- A private constant of bytes, which a NUL follows in memory. -/
structure Global where
  number : Nat
  bytes : ByteArray

/-- The positions of names in a list; of two that are equal, the later position counts. -/
def nameIndex (names : List String) : Std.TreeMap String Nat :=
  names.zipIdx.foldl (fun index entry => index.insert entry.1 entry.2) {}

/-- A name at the end comes to its position, whatever was entered under it. -/
theorem nameIndex_append (names : List String) (name : String) :
    nameIndex (names ++ [name]) = (nameIndex names).insert name names.length := by
  simp [nameIndex, List.zipIdx_append]

/-- A whole program. -/
structure Module where
  name : String
  globals : Array Global := #[]
  functions : Array Function := #[]
  /-- The index of the latest function of each name. -/
  byName : Std.TreeMap String Nat := nameIndex (functions.toList.map (·.prototype.name))

namespace Body

/-- The type of an operand. An instruction that does not exist has no value. -/
def typeOf (b : Body) : Operand → Ty
  | .double _ => .double
  | .i32 _ => .i32
  | .global _ => .ptr
  | .inst i =>
    match b.instructions[i]? with
    | some inst => inst.ty
    | none => .void

@[simp] theorem typeOf_double (b : Body) (d : Double) : b.typeOf (.double d) = .double := rfl

@[simp] theorem typeOf_i32 (b : Body) (n : Int32) : b.typeOf (.i32 n) = .i32 := rfl

@[simp] theorem typeOf_global (b : Body) (i : Nat) : b.typeOf (.global i) = .ptr := rfl

/-- The instructions of a block, in order, with their indices. -/
def contents (b : Body) (block : Block) : List (Nat × Instruction) :=
  block.instructions.toList.filterMap fun i => b.instructions[i]?.map (i, ·)

/-- Whether the last instruction of a block ends it. -/
def isTerminated (b : Body) (block : Block) : Bool :=
  match block.instructions.back? with
  | some i => (b.instructions[i]?.map (·.kind.isTerminator)).getD false
  | none => false

end Body

namespace Function

def name (f : Function) : String := f.prototype.name

def isDeclaration (f : Function) : Bool := f.body.isNone

end Function

/-- The size of a constant in memory, with the NUL behind it. -/
def Global.size (g : Global) : Nat := g.bytes.size + 1

namespace Module

/-- Add a constant. It is numbered by its position. -/
def addGlobal (m : Module) (bytes : ByteArray) : Nat × Module :=
  let n := m.globals.size
  (n, { m with globals := m.globals.push ⟨n, bytes⟩ })

/-- Add a function, which hides earlier ones of the same name from `function?`. -/
def addFunction (m : Module) (f : Function) : Nat × Module :=
  let i := m.functions.size
  (i, { m with functions := m.functions.push f, byName := m.byName.insert f.name i })

/-- The index of the latest function of a name. -/
def function? (m : Module) (name : String) : Option Nat := m.byName[name]?

/-- The prototype of a function by its index. -/
def prototype? (m : Module) (i : Nat) : Option Prototype := m.functions[i]?.map (·.prototype)

/-- How many functions are only declared. -/
def declarationCount (m : Module) : Nat := m.functions.toList.countP (·.isDeclaration)

end Module

end Straightline
