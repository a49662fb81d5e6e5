import Straightline.Emission.Compilation
import Straightline.Proofs.Ir.Names
import Straightline.Proofs.Script.Tree

/-!
# Drafts

A draft is the code of a program as a plain list of instructions, with the variables in the order of
their slots. It says what the steps of a compilation add and in which order, without the tables that
a compilation keeps and without errors.

* `Draft.push` adds an instruction, and `read`, `write`, `apply`, `printNumber`, `printString` and
  `finish` say what a step adds.
* `Draft.module` is the finished program.
* `Draft.Valid` holds of every draft that steps lead to, and `Draft.Grows` says that steps only add.
-/

namespace Straightline

/-- A variable of a draft. -/
structure Variable where
  name : String
  /-- The index of the instruction that reserves its slot. -/
  slot : Nat
  /-- Whether there is a store to its slot. -/
  written : Bool
  deriving DecidableEq

namespace Variable

/-- The variable after a store to `name`. -/
def mark (name : String) (v : Variable) : Variable :=
  { v with written := v.written || v.name = name }

@[simp] theorem name_mark (name : String) (v : Variable) : (v.mark name).name = v.name := rfl

@[simp] theorem slot_mark (name : String) (v : Variable) : (v.mark name).slot = v.slot := rfl

end Variable

/-- The code of a program under construction. -/
structure Draft where
  instructions : Array Instruction := #[]
  names : NameSupply := (NameSupply.fresh {} "entry").2
  /-- The variables that have a slot, in the order of their slots. -/
  vars : List Variable := []
  constants : Array ByteArray := #[]
  declaresPrintf : Bool := false

namespace Draft

/-! ### What steps add -/

/-- The block of `main`, with all instructions in their order. -/
def block (d : Draft) : Block where
  label := "entry"
  instructions := Array.range d.instructions.size

/-- The body of `main`, a single block. -/
def body (d : Draft) : Body where
  instructions := d.instructions
  blocks := #[d.block]
  names := d.names

/-- The result of the next instruction. -/
def next (d : Draft) : Operand := .inst d.instructions.size

/-- Add an instruction. Its result is named after the hint, if there is one. -/
def push (d : Draft) (kind : Kind) (ty : Ty) : Option String → Draft
  | none => { d with instructions := d.instructions.push ⟨kind, ty, none⟩ }
  | some hint =>
    { d with
      instructions := d.instructions.push ⟨kind, ty, some (d.names.fresh hint).1⟩
      names := (d.names.fresh hint).2 }

/-- The variable of a name. -/
def lookup? (d : Draft) (name : String) : Option Variable := d.vars.find? (·.name = name)

/-- The slot of a name; the slot of a new name is the next instruction. -/
def slot (d : Draft) (name : String) : Nat :=
  match d.lookup? name with
  | some v => v.slot
  | none => d.instructions.size

/-- Whether there is a store to the slot of a name. -/
def isWritten (d : Draft) (name : String) : Bool :=
  match d.lookup? name with
  | some v => v.written
  | none => false

/-- Reserve a slot for a name, unless it has one. -/
def declare (d : Draft) (name : String) : Draft :=
  match d.lookup? name with
  | some _ => d
  | none =>
    { d.push (.alloca .double) .ptr (some name) with
      vars := d.vars ++ [⟨name, d.instructions.size, false⟩] }

/-- Store to the slot of a name. -/
def store (d : Draft) (name : String) (value : Operand) : Draft :=
  { d.push (.store value (.inst (d.slot name))) .void none with
    vars := d.vars.map (Variable.mark name) }

/-- An operand as a double: the result of a comparison is widened. -/
def asDouble (d : Draft) (x : Operand) : Operand × Draft :=
  if d.body.typeOf x = .i1 then (d.next, d.push (.widen x) .double (some "booltmp")) else (x, d)

/-- Make a variable ready to be read: under `zeroInit`, zero is stored to it if nothing was. -/
def prepare (d : Draft) (policy : ReadPolicy) (name : String) : Draft :=
  if policy = .zeroInit ∧ d.isWritten name = false then d.store name (.double Double.zero) else d

/-- Load the value of a variable. -/
def read (d : Draft) (policy : ReadPolicy) (name : String) : Operand × Draft :=
  let d := (d.declare name).prepare policy name
  (d.next, d.push (.load .double (.inst (d.slot name))) .double (some name))

/-- Store a value to a variable. -/
def write (d : Draft) (name : String) (value : Operand) : Draft :=
  let d := d.declare name
  let (value, d) := d.asDouble value
  d.store name value

end Draft

namespace Operator

/-- The instruction of an operator. -/
def kind : Operator → Operand → Operand → Kind
  | arithmetic op => .binary op
  | comparison condition => .compare condition

/-- The type of an operator's result. -/
def ty : Operator → Ty
  | arithmetic _ => .double
  | comparison _ => .i1

theorem isTerminator_kind (op : Operator) (x y : Operand) : (op.kind x y).isTerminator = false := by
  cases op <;> rfl

/-- What an operator's result is named after. -/
def hint : Operator → String
  | arithmetic .add => "fadd"
  | arithmetic .sub => "fsub"
  | arithmetic .mul => "fmul"
  | arithmetic .div => "fdiv"
  | comparison .greater => "cmpgt"
  | comparison .less => "cmplt"

end Operator

namespace Draft

/-- Apply an operator to two operands, which are made doubles from left to right. -/
def apply (d : Draft) (op : Operator) (x y : Operand) : Operand × Draft :=
  let (x, d) := d.asDouble x
  let (y, d) := d.asDouble y
  (d.next, d.push (op.kind x y) op.ty (some op.hint))

/-- Add a constant. -/
def constant (d : Draft) (text : String) : Draft :=
  { d with constants := d.constants.push text.toByteArray }

/-- Call `printf`, which is declared from then on, with a format of its own and a value. -/
def printf (d : Draft) (format : String) (value : Operand) : Draft :=
  { d.constant format with declaresPrintf := true }.push
    (.call 1 [.global d.constants.size, value]) .i32 (some "printfCall")

/-- Print a number. -/
def printNumber (d : Draft) (value : Operand) : Draft :=
  let (value, d) := d.asDouble value
  d.printf "%f\n" value

/-- Print a text, which becomes a constant in front of its format. -/
def printString (d : Draft) (text : String) : Draft :=
  (d.constant text).printf "%s\n" (.global d.constants.size)

/-- Return zero. -/
def finish (d : Draft) : Draft := d.push (.ret (some (.i32 0))) .void none

/-- The program: `main` and, if it is declared, `printf`. -/
def module (d : Draft) (name : String) : Module where
  name := name
  globals := d.constants.mapIdx Global.mk
  functions :=
    #[⟨mainPrototype, some d.body⟩] ++ if d.declaresPrintf then #[⟨printfPrototype, none⟩] else #[]

/-! ### Fields after a step -/

section

variable (d : Draft) (kind : Kind) (ty : Ty) (hint : Option String)

/-- The name that the next instruction gets from a hint. -/
def nextName : Option String → Option String := Option.map fun hint => (d.names.fresh hint).1

@[simp] theorem instructions_push :
    (d.push kind ty hint).instructions = d.instructions.push ⟨kind, ty, d.nextName hint⟩ := by
  cases hint <;> rfl

@[simp] theorem vars_push : (d.push kind ty hint).vars = d.vars := by
  cases hint <;> rfl

@[simp] theorem constants_push : (d.push kind ty hint).constants = d.constants := by
  cases hint <;> rfl

@[simp] theorem declaresPrintf_push :
    (d.push kind ty hint).declaresPrintf = d.declaresPrintf := by
  cases hint <;> rfl

@[simp] theorem lookup?_push (name : String) :
    (d.push kind ty hint).lookup? name = d.lookup? name := by
  simp [lookup?]

@[simp] theorem isWritten_push (name : String) :
    (d.push kind ty hint).isWritten name = d.isWritten name := by
  simp [isWritten]

end

@[simp] theorem instructions_body (d : Draft) : d.body.instructions = d.instructions := rfl

/-- The type of a result is that of its instruction. -/
theorem typeOf_inst (d : Draft) (i : Nat) :
    d.body.typeOf (.inst i) = (d.instructions[i]?.map (·.ty)).getD .void := by
  rw [Body.typeOf, instructions_body]
  cases d.instructions[i]? <;> rfl

/-! ### Variables -/

/-- `slot` is the slot of the variable that `lookup?` finds. -/
theorem slot_of_lookup? {d : Draft} {name : String} {v : Variable} (h : d.lookup? name = some v) :
    d.slot name = v.slot := by
  simp [slot, h]

/-- `isWritten` is whether the variable that `lookup?` finds is written. -/
theorem isWritten_of_lookup? {d : Draft} {name : String} {v : Variable}
    (h : d.lookup? name = some v) : d.isWritten name = v.written := by
  simp [isWritten, h]

/-- `declare` changes nothing about a name that has a variable. -/
theorem declare_of_lookup? {d : Draft} {name : String} {v : Variable}
    (h : d.lookup? name = some v) : d.declare name = d := by
  simp [declare, h]

/-- `declare` pushes an `alloca` for a new name, and adds the variable behind all others. -/
theorem declare_of_new {d : Draft} {name : String} (h : d.lookup? name = none) :
    d.declare name =
      { d.push (.alloca .double) .ptr (some name) with
        vars := d.vars ++ [⟨name, d.instructions.size, false⟩] } := by
  simp [declare, h]

/-- `declare` of a new variable adds an `alloca`. -/
theorem instructions_declare_of_new {d : Draft} {name : String} (h : d.lookup? name = none) :
    (d.declare name).instructions =
      d.instructions.push ⟨.alloca .double, .ptr, d.nextName (some name)⟩ := by
  rw [declare_of_new h]
  rfl

@[simp] theorem instructions_store (d : Draft) (name : String) (value : Operand) :
    (d.store name value).instructions =
      d.instructions.push ⟨.store value (.inst (d.slot name)), .void, none⟩ := rfl

/-- `asDouble` widens an operand of type `i1`. -/
theorem asDouble_of_i1 {d : Draft} {x : Operand} (h : d.body.typeOf x = .i1) :
    d.asDouble x = (d.next, d.push (.widen x) .double (some "booltmp")) := if_pos h

/-- `asDouble` leaves any other operand as it is. -/
theorem asDouble_of_ne {d : Draft} {x : Operand} (h : d.body.typeOf x ≠ .i1) :
    d.asDouble x = (x, d) :=
  if_neg h

@[simp] theorem vars_asDouble (d : Draft) (x : Operand) :
    (d.asDouble x).2.vars = d.vars := by
  unfold asDouble
  split <;> simp

@[simp] theorem lookup?_asDouble (d : Draft) (x : Operand) (name : String) :
    (d.asDouble x).2.lookup? name = d.lookup? name := by
  simp [lookup?]

@[simp] theorem vars_printf (d : Draft) (format : String) (value : Operand) :
    (d.printf format value).vars = d.vars := by
  simp [printf, constant]

@[simp] theorem vars_printNumber (d : Draft) (x : Operand) : (d.printNumber x).vars = d.vars := by
  simp [printNumber]

@[simp] theorem vars_printString (d : Draft) (text : String) :
    (d.printString text).vars = d.vars := by
  simp [printString, constant]

/-- `d.IsNumber x`: `x` is a double or the result of a comparison. -/
def IsNumber (d : Draft) (x : Operand) : Prop := d.body.typeOf x = .double ∨ d.body.typeOf x = .i1

/-- The result of an instruction that is pushed with the type `ty` has this type. -/
theorem typeOf_next (d : Draft) (kind : Kind) (ty : Ty) (hint : Option String) :
    (d.push kind ty hint).body.typeOf d.next = ty := by
  rw [next, typeOf_inst, instructions_push, Array.getElem?_push_size]
  rfl

/-- `asDouble` makes a number a double. -/
theorem IsNumber.typeOf_asDouble {d : Draft} {x : Operand} (h : d.IsNumber x) :
    (d.asDouble x).2.body.typeOf (d.asDouble x).1 = .double := by
  unfold asDouble
  split
  · exact d.typeOf_next _ _ _
  · next hx => exact h.resolve_right hx

@[simp] theorem vars_apply (d : Draft) (op : Operator) (x y : Operand) :
    (d.apply op x y).2.vars = d.vars := by
  simp [apply]

@[simp] theorem vars_store (d : Draft) (name : String) (value : Operand) :
    (d.store name value).vars = d.vars.map (Variable.mark name) := rfl

/-- A store changes no name of a variable. -/
theorem names_store (d : Draft) (name : String) (value : Operand) :
    (d.store name value).vars.map (·.name) = d.vars.map (·.name) := by
  rw [vars_store, List.map_map]
  rfl

/-- A store changes no slot of a variable. -/
theorem slots_store (d : Draft) (name : String) (value : Operand) :
    (d.store name value).vars.map (·.slot) = d.vars.map (·.slot) := by
  rw [vars_store, List.map_map]
  rfl

/-- `apply` makes both operands doubles and then pushes the operator's instruction. -/
theorem apply_eq (d : Draft) (op : Operator) (x y : Operand) :
    d.apply op x y =
      (((d.asDouble x).2.asDouble y).2.next,
        ((d.asDouble x).2.asDouble y).2.push
          (op.kind (d.asDouble x).1 ((d.asDouble x).2.asDouble y).1) op.ty (some op.hint)) := rfl

/-- The variable that `lookup? name` finds has this name. -/
theorem name_of_lookup? {d : Draft} {name : String} {v : Variable} (h : d.lookup? name = some v) :
    v.name = name := by
  simpa using List.find?_some h

theorem mem_of_lookup? {d : Draft} {name : String} {v : Variable} (h : d.lookup? name = some v) :
    v ∈ d.vars := List.mem_of_find?_eq_some h

/-- `declare name` gives a new name the next instruction as its slot, and changes no other
    variable. -/
theorem lookup?_declare (d : Draft) (name other : String) :
    (d.declare name).lookup? other =
      if other = name ∧ d.lookup? name = none then some ⟨name, d.instructions.size, false⟩
      else d.lookup? other := by
  cases h : d.lookup? name with
  | some v => rw [declare_of_lookup? h]; simp
  | none =>
    rw [declare_of_new h]
    show (d.vars ++ [_]).find? _ = _
    -- A new name stands behind all others, so it is found by itself only.
    rw [List.find?_append]
    by_cases hn : other = name
    · subst hn
      have hnone : d.vars.find? (·.name = other) = none := h
      simp [hnone]
    · have hne : ¬ name = other := fun h => hn h.symm
      simp [hn, hne, lookup?]

/-- The slot that `declare` gives a name is the one that `slot` promises. -/
theorem lookup?_declare_self (d : Draft) (name : String) :
    (d.declare name).lookup? name = some ⟨name, d.slot name, d.isWritten name⟩ := by
  rw [lookup?_declare]
  cases h : d.lookup? name with
  | none => simp [slot, isWritten, h]
  | some v =>
    rw [if_neg (by simp), slot_of_lookup? h, isWritten_of_lookup? h]
    exact congrArg some (by rw [← name_of_lookup? h])

@[simp] theorem slot_declare_self (d : Draft) (name : String) :
    (d.declare name).slot name = d.slot name :=
  slot_of_lookup? (lookup?_declare_self d name)

@[simp] theorem isWritten_declare_self (d : Draft) (name : String) :
    (d.declare name).isWritten name = d.isWritten name :=
  isWritten_of_lookup? (lookup?_declare_self d name)

/-- A store to `name` marks this variable, and changes no other. -/
theorem lookup?_store (d : Draft) (name : String) (value : Operand) (other : String) :
    (d.store name value).lookup? other = (d.lookup? other).map (Variable.mark name) := by
  show (d.vars.map (Variable.mark name)).find? _ = _
  rw [List.find?_map]
  rfl

/-- A store leaves every slot where it is. -/
theorem slot_store {d : Draft} {other : String} {v : Variable} (h : d.lookup? other = some v)
    (name : String) (value : Operand) : (d.store name value).slot other = v.slot := by
  have hstore := lookup?_store d name value other
  rw [h, Option.map_some] at hstore
  rw [slot_of_lookup? hstore, Variable.slot_mark]

/-- `prepare` does nothing to a variable that is written. -/
theorem prepare_of_written {d : Draft} {name : String} (h : d.isWritten name = true)
    (policy : ReadPolicy) : d.prepare policy name = d := by
  simp [prepare, h]

/-- `prepare` does nothing under another policy than `zeroInit`. -/
theorem prepare_of_ne {policy : ReadPolicy} (h : policy ≠ .zeroInit) (d : Draft) (name : String) :
    d.prepare policy name = d := by
  simp [prepare, h]

/-- Under `zeroInit`, `prepare` stores zero to a variable that is not written. -/
theorem prepare_of_unwritten {d : Draft} {name : String} (h : d.isWritten name = false) :
    d.prepare .zeroInit name = d.store name (.double Double.zero) := by
  simp [prepare, h]

/-- `prepare` leaves the slot where it is. -/
theorem slot_prepare {d : Draft} {name : String} {v : Variable} (h : d.lookup? name = some v)
    (policy : ReadPolicy) : (d.prepare policy name).slot name = v.slot := by
  unfold prepare
  split
  · exact slot_store h _ _
  · exact slot_of_lookup? h

/-! ### Written variables -/

/-- `isWritten` depends on the variables only. -/
theorem isWritten_congr {d d' : Draft} (h : d'.vars = d.vars) (name : String) :
    d'.isWritten name = d.isWritten name := by
  rw [isWritten, lookup?, h]
  rfl

@[simp] theorem isWritten_declare (d : Draft) (name other : String) :
    (d.declare name).isWritten other = d.isWritten other := by
  unfold isWritten
  rw [lookup?_declare]
  by_cases h : other = name ∧ d.lookup? name = none
  · rw [if_pos h, h.1, h.2]
  · rw [if_neg h]

/-- A store to `name` writes this variable and no other. -/
theorem isWritten_store {d : Draft} {name : String} {v : Variable} (h : d.lookup? name = some v)
    (value : Operand) (other : String) :
    (d.store name value).isWritten other = (decide (other = name) || d.isWritten other) := by
  unfold isWritten
  rw [lookup?_store]
  cases hv : d.lookup? other with
  | none =>
    have hne : other ≠ name := by
      rintro rfl
      simp [hv] at h
    simp [hne]
  | some u => simp [Variable.mark, name_of_lookup? hv, Bool.or_comm]

/-- After `prepare`, a variable is written if the policy is `zeroInit` or it was before. -/
theorem isWritten_prepare {d : Draft} {name : String} {v : Variable} (hv : d.lookup? name = some v)
    {policy : ReadPolicy} (h : policy ≠ .zeroInit → d.isWritten name = true) :
    (d.prepare policy name).isWritten name = true := by
  cases hw : d.isWritten name with
  | true => rwa [prepare_of_written hw]
  | false =>
    have hpolicy : policy = .zeroInit := by
      by_cases hpolicy : policy = .zeroInit
      · exact hpolicy
      · simp [h hpolicy] at hw
    rw [hpolicy, prepare_of_unwritten hw, isWritten_store hv]
    simp

/-- `write` writes its variable and no other. -/
theorem isWritten_write (d : Draft) (name : String) (value : Operand) (other : String) :
    (d.write name value).isWritten other = (decide (other = name) || d.isWritten other) := by
  have hv := lookup?_declare_self d name
  rw [write, isWritten_store (by rw [lookup?_asDouble, hv]), isWritten_congr (vars_asDouble _ _),
    isWritten_declare]

/-- Unless zero is stored to it, a variable that is read stays unwritten. -/
theorem isWritten_read {policy : ReadPolicy} (h : policy ≠ .zeroInit) (d : Draft)
    (name other : String) : (d.read policy name).2.isWritten other = d.isWritten other := by
  rw [read, prepare_of_ne h, isWritten_push, isWritten_declare]

/-- Under `zeroInit`, `read` writes its variable. -/
theorem isWritten_read_zeroInit (d : Draft) (name other : String) :
    (d.read .zeroInit name).2.isWritten other = (decide (other = name) || d.isWritten other) := by
  have hv := lookup?_declare_self d name
  rw [read, isWritten_push]
  cases hw : d.isWritten name with
  | true =>
    rw [prepare_of_written (by rwa [isWritten_declare]), isWritten_declare]
    by_cases hname : other = name
    · simp [hname, hw]
    · simp [hname]
  | false =>
    rw [prepare_of_unwritten (by rwa [isWritten_declare]), isWritten_store hv, isWritten_declare]

/-- The first of some names that there is no store to. -/
def firstUnwritten? (d : Draft) (names : List String) : Option String :=
  names.find? (d.isWritten · = false)

/-- There is no first unwritten name iff all names are written. -/
theorem firstUnwritten?_eq_none_iff {d : Draft} {names : List String} :
    d.firstUnwritten? names = none ↔ ∀ name ∈ names, d.isWritten name = true := by
  simp [firstUnwritten?]

/-- The first unwritten of one name is this name. -/
theorem firstUnwritten?_singleton {d : Draft} {name v : String}
    (h : d.firstUnwritten? [name] = some v) :
    d.isWritten name = false ∧ name = v := by
  simpa [firstUnwritten?, List.find?_singleton] using h

/-- The first unwritten of `left ++ right` is that of `left`, or all of `left` are written and it is
    that of `right`. -/
theorem firstUnwritten?_append {d : Draft} {left right : List String} {v : String}
    (h : d.firstUnwritten? (left ++ right) = some v) :
    d.firstUnwritten? left = some v ∨
      (∀ name ∈ left, d.isWritten name = true) ∧ d.firstUnwritten? right = some v := by
  rw [firstUnwritten?, List.find?_append] at h
  rcases Option.or_eq_some_iff.mp h with hleft | ⟨hnone, hright⟩
  · exact .inl hleft
  · exact .inr ⟨firstUnwritten?_eq_none_iff.mp hnone, hright⟩

/-- `firstUnwritten?` depends on `isWritten` only. -/
theorem firstUnwritten?_congr {d d' : Draft} (h : ∀ name, d'.isWritten name = d.isWritten name)
    (names : List String) : d'.firstUnwritten? names = d.firstUnwritten? names := by
  simp only [firstUnwritten?, h]

/-! ### Declared variables -/

/-- Whether a name has a slot. -/
def isDeclared (d : Draft) (name : String) : Bool := (d.lookup? name).isSome

/-- `isDeclared` depends on the variables only. -/
theorem isDeclared_congr {d d' : Draft} (h : d'.vars = d.vars) (name : String) :
    d'.isDeclared name = d.isDeclared name := by
  rw [isDeclared, lookup?, h]
  rfl

/-- `declare name` declares this variable and no other. -/
theorem isDeclared_declare (d : Draft) (name other : String) :
    (d.declare name).isDeclared other = (decide (other = name) || d.isDeclared other) := by
  unfold isDeclared
  by_cases hname : other = name
  · subst hname
    rw [lookup?_declare_self]
    simp
  · rw [lookup?_declare, if_neg fun h => hname h.1]
    simp [hname]

@[simp] theorem isDeclared_store (d : Draft) (name : String) (value : Operand) (other : String) :
    (d.store name value).isDeclared other = d.isDeclared other := by
  simp [isDeclared, lookup?_store]

/-- `write` declares its variable and no other. -/
theorem isDeclared_write (d : Draft) (name : String) (value : Operand) (other : String) :
    (d.write name value).isDeclared other = (decide (other = name) || d.isDeclared other) := by
  rw [write, isDeclared_store, isDeclared_congr (vars_asDouble _ _), isDeclared_declare]

/-- `read` declares its variable and no other. -/
theorem isDeclared_read (d : Draft) (policy : ReadPolicy) (name other : String) :
    (d.read policy name).2.isDeclared other = (decide (other = name) || d.isDeclared other) := by
  rw [read, isDeclared_congr (vars_push _ _ _ _), prepare]
  split
  · rw [isDeclared_store, isDeclared_declare]
  · exact isDeclared_declare d name other

/-! ### Growth -/

/-- `Grows d d'`: `d` becomes `d'` by steps that add instructions, slots, stores and constants. No
    instruction ends the block. -/
inductive Grows (d : Draft) : Draft → Prop
  | refl : Grows d d
  | push {d' : Draft} (kind : Kind) (ty : Ty) (hint : Option String) :
    kind.isTerminator = false → Grows d d' → Grows d (d'.push kind ty hint)
  | declare {d' : Draft} (name : String) : Grows d d' → Grows d (d'.declare name)
  | store {d' : Draft} (name : String) (value : Operand) :
    Grows d d' → Grows d (d'.store name value)
  | constant {d' : Draft} (text : String) : Grows d d' → Grows d (d'.constant text)
  | printf {d' : Draft} : Grows d d' → Grows d { d' with declaresPrintf := true }

theorem Grows.trans {d d' d'' : Draft} (h : Grows d d') (h' : Grows d' d'') : Grows d d'' := by
  induction h' with
  | refl => exact h
  | push kind ty hint hk _ ih => exact .push kind ty hint hk ih
  | declare name _ ih => exact .declare name ih
  | store name value _ ih => exact .store name value ih
  | constant text _ ih => exact .constant text ih
  | printf _ ih => exact .printf ih

/-- `asDouble` pushes a `widen` or nothing. -/
theorem grows_asDouble (d : Draft) (x : Operand) : Grows d (d.asDouble x).2 := by
  unfold asDouble
  split
  · exact Grows.push (.widen x) .double (some "booltmp") rfl .refl
  · exact .refl

/-- `prepare` stores or does nothing. -/
theorem grows_prepare (d : Draft) (policy : ReadPolicy) (name : String) :
    Grows d (d.prepare policy name) := by
  unfold prepare
  split
  · exact .store _ _ .refl
  · exact .refl

/-- `read` declares, prepares and pushes a load. -/
theorem grows_read (d : Draft) (policy : ReadPolicy) (name : String) :
    Grows d (d.read policy name).2 :=
  Grows.push (.load .double (.inst _)) .double (some name) rfl
    ((Grows.declare name .refl).trans (grows_prepare _ policy name))

/-- `write` declares and stores. -/
theorem grows_write (d : Draft) (name : String) (value : Operand) :
    Grows d (d.write name value) :=
  .store _ _ ((Grows.declare _ .refl).trans (grows_asDouble _ _))

/-- `apply` makes two doubles and pushes the operator's instruction. -/
theorem grows_apply (d : Draft) (op : Operator) (x y : Operand) : Grows d (d.apply op x y).2 :=
  Grows.push _ op.ty (some op.hint) (op.isTerminator_kind _ _)
    ((grows_asDouble d x).trans (grows_asDouble _ y))

/-- `printf` adds its format, declares the function and pushes the call. -/
theorem grows_printf (d : Draft) (format : String) (value : Operand) :
    Grows d (d.printf format value) := by
  refine .push _ _ _ ?_ (.printf (.constant _ .refl))
  rfl

/-- `printNumber` only adds to the draft. -/
theorem grows_printNumber (d : Draft) (value : Operand) : Grows d (d.printNumber value) :=
  (grows_asDouble d value).trans (grows_printf _ _ _)

/-- `printString` only adds to the draft. -/
theorem grows_printString (d : Draft) (text : String) : Grows d (d.printString text) :=
  (Grows.constant text .refl).trans (grows_printf _ _ _)

/-- The instructions stay, with more behind them. -/
theorem Grows.instructions {d d' : Draft} (h : Grows d d') :
    d.instructions.toList <+: d'.instructions.toList := by
  induction h with
  | refl => exact List.prefix_refl _
  | push kind ty hint _ _ ih =>
    rw [instructions_push, Array.toList_push]
    exact ih.trans (List.prefix_append _ _)
  | @declare d' name _ ih =>
    -- Only a new variable needs an instruction.
    cases hv : d'.lookup? name with
    | some v => rwa [declare_of_lookup? hv]
    | none =>
      rw [instructions_declare_of_new hv, Array.toList_push]
      exact ih.trans (List.prefix_append _ _)
  | store name value _ ih =>
    rw [instructions_store, Array.toList_push]
    exact ih.trans (List.prefix_append _ _)
  | constant text _ ih => exact ih
  | printf _ ih => exact ih

/-- An instruction stays at its index. -/
theorem Grows.getElem? {d d' : Draft} (h : Grows d d') {i : Nat} {inst : Instruction}
    (hi : d.instructions[i]? = some inst) : d'.instructions[i]? = some inst := by
  obtain ⟨added, hadded⟩ := h.instructions
  rw [← Array.getElem?_toList] at hi ⊢
  rw [← hadded, List.getElem?_append_left (List.getElem?_eq_some_iff.mp hi).1, hi]

/-- The constants stay, with more behind them. -/
theorem Grows.constants {d d' : Draft} (h : Grows d d') :
    d.constants.toList <+: d'.constants.toList := by
  induction h with
  | refl => exact List.prefix_refl _
  | push kind ty hint _ _ ih => rwa [constants_push]
  | @declare d' name _ ih =>
    cases hv : d'.lookup? name with
    | some v => rwa [declare_of_lookup? hv]
    | none => rwa [declare_of_new hv]
  | store name value _ ih => exact ih
  | constant text _ ih =>
    rw [Draft.constant, Array.toList_push]
    exact ih.trans (List.prefix_append _ _)
  | printf _ ih => exact ih

/-- `printf` stays declared. -/
theorem Grows.declaresPrintf {d d' : Draft} (h : Grows d d') (hd : d.declaresPrintf = true) :
    d'.declaresPrintf = true := by
  induction h with
  | refl => exact hd
  | push kind ty hint _ _ ih => rwa [declaresPrintf_push]
  | @declare d' name _ ih =>
    cases hv : d'.lookup? name with
    | some v => rwa [declare_of_lookup? hv]
    | none => rwa [declare_of_new hv]
  | store name value _ ih => exact ih
  | constant text _ ih => exact ih
  | printf _ _ => rfl

/-- A variable keeps its slot, and stays written. -/
theorem Grows.lookup? {d d' : Draft} (h : Grows d d') {name : String} {v : Variable}
    (hv : d.lookup? name = some v) :
    ∃ v', d'.lookup? name = some v' ∧ v'.slot = v.slot ∧
      (v.written = true → v'.written = true) := by
  -- By induction on the steps; only `declare` and `store` touch the variables.
  induction h with
  | refl => exact ⟨v, hv, rfl, id⟩
  | push kind ty hint _ _ ih => rwa [lookup?_push]
  | @declare d' other _ ih =>
    obtain ⟨v', hv', hs⟩ := ih
    refine ⟨v', ?_, hs⟩
    rw [lookup?_declare, if_neg, hv']
    rintro ⟨rfl, hnone⟩
    rw [hv'] at hnone
    cases hnone
  | store other value _ ih =>
    obtain ⟨v', hv', hs, hw⟩ := ih
    rw [lookup?_store, hv']
    exact ⟨_, rfl, hs, fun h => by simp [Variable.mark, hw h]⟩
  | constant text _ ih => exact ih
  | printf _ ih => exact ih

/-- A variable that is written stays so. -/
theorem Grows.isWritten {d d' : Draft} (h : Grows d d') {name : String}
    (hw : d.isWritten name = true) : d'.isWritten name = true := by
  cases hv : d.lookup? name with
  | none => simp [Draft.isWritten, hv] at hw
  | some v =>
    obtain ⟨v', hv', -, hwritten⟩ := h.lookup? hv
    rw [isWritten_of_lookup? hv] at hw
    rw [isWritten_of_lookup? hv', hwritten hw]

/-- An operand whose type is not `void` keeps it. -/
theorem Grows.typeOf {d d' : Draft} (h : Grows d d') {x : Operand}
    (hx : d.body.typeOf x ≠ .void) : d'.body.typeOf x = d.body.typeOf x := by
  cases x with
  | double | i32 | global => rfl
  -- An instruction that is there stays, and one that is not has no type.
  | inst i =>
    rw [typeOf_inst] at hx ⊢
    rw [typeOf_inst]
    cases hi : d.instructions[i]? with
    | none =>
      rw [hi] at hx
      exact absurd rfl hx
    | some inst => rw [h.getElem? hi]

/-- A number keeps its type. -/
theorem IsNumber.typeOf_eq {d d' : Draft} {x : Operand} (hx : d.IsNumber x) (h : Grows d d') :
    d'.body.typeOf x = d.body.typeOf x :=
  h.typeOf (by rcases hx with hx | hx <;> rw [hx] <;> decide)

/-- A number stays one. -/
theorem IsNumber.grows {d d' : Draft} {x : Operand} (hx : d.IsNumber x) (h : Grows d d') :
    d'.IsNumber x := by
  rwa [IsNumber, hx.typeOf_eq h]

/-! ### Valid drafts -/

/-- What holds of every draft that grows out of `{}`: variables differ in name and slot, every slot
    has its `alloca`, and the block is open. -/
structure Valid (d : Draft) : Prop where
  names : (d.vars.map (·.name)).Nodup
  slots : (d.vars.map (·.slot)).Nodup
  alloca : ∀ v ∈ d.vars, ∃ name, d.instructions[v.slot]? = some ⟨.alloca .double, .ptr, some name⟩
  noTerminator : ∀ (i : Nat) (inst : Instruction), d.instructions[i]? = some inst →
    inst.kind.isTerminator = false

theorem valid_empty : Valid {} := ⟨List.nodup_nil, List.nodup_nil, by simp, by simp⟩

/-- The slot of a variable is the index of an instruction. -/
theorem Valid.slot_lt {d : Draft} (h : d.Valid) {v : Variable} (hv : v ∈ d.vars) :
    v.slot < d.instructions.size := by
  obtain ⟨name, hi⟩ := h.alloca v hv
  exact (Array.getElem?_eq_some_iff.mp hi).1

/-- Pushing an instruction that does not end the block keeps a draft valid. -/
theorem Valid.push {d : Draft} (h : d.Valid) {kind : Kind} (hk : kind.isTerminator = false)
    (ty : Ty) (hint : Option String) : (d.push kind ty hint).Valid where
  names := by rw [vars_push]; exact h.names
  slots := by rw [vars_push]; exact h.slots
  -- Instructions that are there stay where they are.
  alloca := by
    intro v hv
    rw [vars_push] at hv
    obtain ⟨name, hi⟩ := h.alloca v hv
    exact ⟨name, (Grows.push kind ty hint hk .refl).getElem? hi⟩
  noTerminator := by
    intro i inst hi
    rw [instructions_push, Array.getElem?_push] at hi
    split at hi
    · obtain rfl := Option.some.inj hi
      exact hk
    · exact h.noTerminator i inst hi

/-- `declare` keeps a draft valid. -/
theorem Valid.declare {d : Draft} (h : d.Valid) (name : String) : (d.declare name).Valid := by
  cases hv : d.lookup? name with
  | some v => rwa [declare_of_lookup? hv]
  | none =>
    have hpush : (d.push (.alloca .double) .ptr (some name)).Valid := h.push rfl _ _
    rw [declare_of_new hv]
    refine ⟨?_, ?_, ?_, hpush.noTerminator⟩
    · -- A name that has no variable yet is a new one.
      rw [List.map_append, List.map_singleton]
      refine List.nodup_append.mpr ⟨h.names, by simp, ?_⟩
      intro a ha b hb
      rw [List.mem_singleton] at hb
      rintro rfl
      obtain ⟨v, hmem, hname⟩ := List.mem_map.mp ha
      have := List.find?_eq_none.mp hv v hmem
      simp_all
    · -- The new slot lies behind all others.
      rw [List.map_append, List.map_singleton]
      refine List.nodup_append.mpr ⟨h.slots, by simp, ?_⟩
      intro a ha b hb
      simp only [List.mem_singleton] at hb
      obtain ⟨v, hmem, rfl⟩ := List.mem_map.mp ha
      exact hb ▸ Nat.ne_of_lt (h.slot_lt hmem)
    · intro v hmem
      rcases List.mem_append.mp hmem with hmem | hmem
      · exact hpush.alloca v (by rwa [vars_push])
      · rw [List.mem_singleton] at hmem
        subst hmem
        exact ⟨(d.names.fresh name).1, by simp [nextName]⟩

/-- `store` keeps a draft valid. -/
theorem Valid.store {d : Draft} (h : d.Valid) (name : String) (value : Operand) :
    (d.store name value).Valid := by
  have hpush : (d.push (.store value (.inst (d.slot name))) .void none).Valid := h.push rfl _ _
  -- Marking a variable changes neither its name nor its slot.
  refine ⟨?_, ?_, ?_, hpush.noTerminator⟩
  · rw [names_store]
    exact h.names
  · rw [slots_store]
    exact h.slots
  · intro v hv
    obtain ⟨w, hw, rfl⟩ := List.mem_map.mp hv
    exact hpush.alloca w (by rwa [vars_push])

/-- A draft that grows stays valid. -/
theorem Grows.valid {d d' : Draft} (h : Grows d d') (hd : d.Valid) : d'.Valid := by
  induction h with
  | refl => exact hd
  | push kind ty hint hk _ ih => exact ih.push hk ty hint
  | declare name _ ih => exact ih.declare name
  | store name value _ ih => exact ih.store name value
  | constant text _ ih => exact ⟨ih.names, ih.slots, ih.alloca, ih.noTerminator⟩
  | printf _ ih => exact ⟨ih.names, ih.slots, ih.alloca, ih.noTerminator⟩

/-- If `f` differs for all variables, then those that agree in it are the same. -/
theorem eq_of_nodup {α : Type} {f : Variable → α} {vs : List Variable} (h : (vs.map f).Nodup)
    {u v : Variable} (hu : u ∈ vs) (hv : v ∈ vs) (heq : f u = f v) : u = v := by
  obtain ⟨i, hi⟩ := List.getElem?_of_mem hu
  obtain ⟨j, hj⟩ := List.getElem?_of_mem hv
  have hlt : i < (vs.map f).length := by simpa using (List.getElem?_eq_some_iff.mp hi).1
  have hij : i = j := (List.getElem?_inj hlt h).mp (by
    rw [List.getElem?_map, List.getElem?_map, hi, hj, Option.map_some, Option.map_some, heq])
  subst hij
  exact Option.some.inj (hi.symm.trans hj)

/-- `lookup?` finds every variable by its name. -/
theorem Valid.lookup?_eq {d : Draft} (h : d.Valid) {v : Variable} (hv : v ∈ d.vars) :
    d.lookup? v.name = some v := by
  cases hu : d.lookup? v.name with
  | none =>
    have := List.find?_eq_none.mp hu v hv
    simp at this
  | some u => rw [eq_of_nodup h.names (mem_of_lookup? hu) hv (name_of_lookup? hu)]

/-- The slot of a variable is a pointer. -/
theorem Valid.typeOf_slot {d : Draft} (h : d.Valid) {name : String} {v : Variable}
    (hv : d.lookup? name = some v) : d.body.typeOf (.inst (d.slot name)) = .ptr := by
  obtain ⟨hint, hi⟩ := h.alloca v (mem_of_lookup? hv)
  rw [typeOf_inst, slot_of_lookup? hv, hi]
  rfl

/-! ### Names -/

/-- The names of results, in the order of the instructions. -/
def resultNames (d : Draft) : List String := d.instructions.toList.filterMap (·.name)

/-- `push` adds the name that `nextName` gives, if there is one. -/
theorem resultNames_push (d : Draft) (kind : Kind) (ty : Ty) (hint : Option String) :
    (d.push kind ty hint).resultNames = d.resultNames ++ (d.nextName hint).toList := by
  rw [resultNames, instructions_push, Array.toList_push, List.filterMap_append]
  cases hint <;> rfl

/-- That name is taken from then on. -/
theorem taken_push (d : Draft) (kind : Kind) (ty : Ty) (hint : Option String) :
    (d.push kind ty hint).names.taken = (d.nextName hint).toList ++ d.names.taken := by
  cases hint with
  | none => rfl
  | some hint => exact NameSupply.taken_fresh d.names hint

/-- No two results have the same name, and the names are recorded as taken. -/
structure UniqueNames (d : Draft) : Prop where
  nodup : d.resultNames.Nodup
  taken : ∀ name ∈ d.resultNames, name ∈ d.names.taken

theorem uniqueNames_empty : UniqueNames {} := ⟨List.nodup_nil, by simp [resultNames]⟩

/-- `push` names a result as no other. -/
theorem UniqueNames.push {d : Draft} (h : d.UniqueNames) (kind : Kind) (ty : Ty)
    (hint : Option String) : (d.push kind ty hint).UniqueNames := by
  constructor
  · rw [resultNames_push]
    cases hint with
    | none => rw [nextName, Option.map_none, Option.toList_none, List.append_nil]; exact h.nodup
    | some hint =>
      refine List.nodup_append.mpr ⟨h.nodup, by simp [nextName], ?_⟩
      -- All names are taken, so a fresh one is none of them.
      rintro a ha b hb rfl
      have hfresh : a = (d.names.fresh hint).1 := by simpa [nextName] using hb
      exact d.names.fresh_notMem hint (hfresh ▸ h.taken a ha)
  · intro name hname
    rw [resultNames_push, List.mem_append] at hname
    rw [taken_push, List.mem_append]
    exact hname.elim (fun hmem => .inr (h.taken name hmem)) .inl

/-- In a draft that grows, the names of results stay different. -/
theorem Grows.uniqueNames {d d' : Draft} (h : Grows d d') (hd : d.UniqueNames) :
    d'.UniqueNames := by
  induction h with
  | refl => exact hd
  | push kind ty hint _ _ ih => exact ih.push kind ty hint
  | @declare d' name _ ih =>
    cases hv : d'.lookup? name with
    | some v => rwa [declare_of_lookup? hv]
    | none =>
      -- A variable that is declared changes nothing but the list of variables besides.
      have hpush := ih.push (.alloca .double) .ptr (some name)
      rw [declare_of_new hv]
      exact ⟨hpush.nodup, hpush.taken⟩
  | @store d' name value _ ih =>
    have hpush := ih.push (.store value (.inst (d'.slot name))) .void none
    exact ⟨hpush.nodup, hpush.taken⟩
  | constant text _ ih => exact ⟨ih.nodup, ih.taken⟩
  | printf _ ih => exact ⟨ih.nodup, ih.taken⟩

/-- A name belongs to one instruction. -/
theorem UniqueNames.index_unique {d : Draft} (h : d.UniqueNames) {i j : Nat} {a b : Instruction}
    (hi : d.instructions[i]? = some a) (hj : d.instructions[j]? = some b) {name : String}
    (ha : a.name = some name) (hb : b.name = some name) : i = j := by
  have hpairs := List.pairwise_filterMap.mp h.nodup
  rw [← Array.getElem?_toList] at hi hj
  obtain ⟨hlti, rfl⟩ := List.getElem?_eq_some_iff.mp hi
  obtain ⟨hltj, rfl⟩ := List.getElem?_eq_some_iff.mp hj
  rcases Nat.lt_trichotomy i j with hlt | heq | hlt
  · exact absurd rfl (List.pairwise_iff_getElem.mp hpairs i j hlti hltj hlt name ha name hb)
  · exact heq
  · exact absurd rfl (List.pairwise_iff_getElem.mp hpairs j i hltj hlti hlt name hb name ha)

end Draft

end Straightline
