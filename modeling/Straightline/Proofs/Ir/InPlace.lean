import Straightline.Proofs.Ir.Building
import Straightline.Proofs.Ir.Recovery
import Straightline.Proofs.Results

/-!
# Modules changed in place

A module is built by steps that change it in place, one small change after the other: a name is
taken, an instruction is put into the arena, and its index into a block. A step that were refused
between two of these changes would leave a name behind that nothing has, or an instruction that no
block lists.

* `Building` is a step that leaves a module behind whether it fails or not, and `Building.emit` and
  `Building.appendBlock` make their checks and their changes one by one.
* `Building.emit_eq` and `Building.appendBlock_eq`: they agree with `Module.emit` and
  `Module.appendBlock`, which do all at once, and where these fail the module is left as it was.
* `Body.check_eq_ok_iff` says which instructions pass the checks.
* `Body.AddsInstruction`, `Body.AddsBlock` and `Module.ChangesBody` say what is different
  afterwards, and that nothing else is.
* `building_atomic`: a step is made as a whole or not at all, and it fails for four reasons only.
-/

namespace Straightline

/-! ### What an instruction demands -/

namespace Kind

/-- The operands of an instruction that `check` looks at, in order, and the types they need to have.
    A stored value is not among them. `ret` is what the function returns. -/
def demands (ret : Ty) (prototype? : Nat → Option Prototype) : Kind → List (Operand × Ty)
  | alloca _ => []
  | load _ ptr => [(ptr, .ptr)]
  | store _ ptr => [(ptr, .ptr)]
  | binary _ lhs rhs => [(lhs, .double), (rhs, .double)]
  | compare _ lhs rhs => [(lhs, .double), (rhs, .double)]
  | widen value => [(value, .i1)]
  | call callee args => args.zip (((prototype? callee).map (·.params)).getD [])
  | .ret none => []
  | .ret (some value) => [(value, ret)]

/-- The type of the result of an instruction, among functions with these prototypes. -/
def resultTyAmong (prototype? : Nat → Option Prototype) : Kind → Ty
  | alloca _ => .ptr
  | load ty _ => ty
  | store .. => .void
  | binary .. => .double
  | compare .. => .i1
  | widen _ => .double
  | call callee _ => ((prototype? callee).map (·.ret)).getD .void
  | .ret _ => .void

/-- A call passes as many arguments as its callee takes: one for each parameter and, only if it is
    variadic, possibly more. -/
def FitsArity (prototype? : Nat → Option Prototype) : Kind → Prop
  | call callee args => ∃ p, prototype? callee = some p ∧ p.params.length ≤ args.length ∧
      (p.variadic = false → args.length = p.params.length)
  | _ => True

/-- The check of the number of arguments. -/
def checkFit (prototype? : Nat → Option Prototype) : Kind → Except BuildError Unit
  | call callee args => do
    let _ ← checkArity prototype? callee args
    return ()
  | _ => .ok ()

/-- `checkFit` succeeds iff `FitsArity`. -/
theorem checkFit_eq_ok_iff {prototype? : Nat → Option Prototype} {kind : Kind} :
    kind.checkFit prototype? = .ok () ↔ kind.FitsArity prototype? := by
  cases kind with
  | call callee args =>
    cases hp : prototype? callee with
    | none => simp [checkFit, checkArity, FitsArity, hp, bind, Except.bind]
    | some p =>
      -- More arguments than parameters are fine for a variadic function alone.
      have hadmits : p.admits args.length = true ↔
          p.params.length ≤ args.length ∧ (p.variadic = false → args.length = p.params.length) := by
        unfold Prototype.admits
        cases p.variadic <;> simp
        omega
      simp only [checkFit, checkArity, FitsArity, hp, Option.some.injEq, exists_eq_left', ← hadmits]
      cases p.admits args.length <;> simp [bind, Except.bind, pure, Except.pure]
  | _ => simp [checkFit, FitsArity]

end Kind

namespace Body

variable {b b' : Body}

/-- Require the types of the operands, one after the other. -/
def expectEach (b : Body) (opcode : String) : List (Operand × Ty) → Except BuildError Unit
  | [] => .ok ()
  | (operand, ty) :: demands => do
    b.expect opcode operand ty
    b.expectEach opcode demands

/-- `expectAll` is `expectEach` of the operands with their types. -/
theorem expectAll_eq (opcode : String) (operands : List Operand) (tys : List Ty) :
    b.expectAll opcode operands tys = b.expectEach opcode (operands.zip tys) := by
  induction operands generalizing tys with
  | nil => rfl
  | cons operand operands ih =>
    cases tys with
    | nil => rfl
    | cons ty tys => rw [expectAll, List.zip_cons_cons, expectEach, ih]

/-- `expectEach` succeeds iff all operands have the types that they need. -/
theorem expectEach_eq_ok_iff (opcode : String) {demands : List (Operand × Ty)} :
    b.expectEach opcode demands = .ok () ↔ ∀ x ∈ demands, b.typeOf x.1 = x.2 := by
  induction demands with
  | nil => simp [expectEach]
  | cons x demands ih =>
    obtain ⟨operand, ty⟩ := x
    rw [List.forall_mem_cons, ← ih, expectEach, expect]
    by_cases h : b.typeOf operand = ty <;> simp [h, bind, Except.bind]

/-- `check` makes two rounds: first `checkFit` for the number of arguments, and then `expectEach`
    for the types of the operands. -/
theorem check_eq (b : Body) (ret : Ty) (prototype? : Nat → Option Prototype) (kind : Kind) :
    b.check ret prototype? kind = do
      kind.checkFit prototype?
      b.expectEach kind.opcode.text (kind.demands ret prototype?)
      return kind.resultTyAmong prototype? := by
  have hone : ∀ opcode x ty (result : Ty), (do b.expect opcode x ty; return result) =
      (do b.expectEach opcode [(x, ty)]; return result) := by
    intro opcode x ty result
    cases h : b.expect opcode x ty <;> simp [expectEach, h, bind, Except.bind]
  have htwo : ∀ opcode x y ty (result : Ty),
      (do b.expect opcode x ty; b.expect opcode y ty; return result) =
      (do b.expectEach opcode [(x, ty), (y, ty)]; return result) := by
    intro opcode x y ty result
    cases hx : b.expect opcode x ty <;> cases hy : b.expect opcode y ty <;>
      simp [expectEach, hx, hy, bind, Except.bind]
  -- No other instruction than a call has something to check in the first round.
  cases kind with
  | alloca ty => rfl
  | load ty ptr => exact hone "load" ptr .ptr ty
  | store value ptr => exact hone "store" ptr .ptr .void
  | binary op lhs rhs => exact htwo op.opcode lhs rhs .double .double
  | compare condition lhs rhs => exact htwo "fcmp" lhs rhs .double .i1
  | widen value => exact hone "uitofp" value .i1 .double
  | call callee args =>
    cases hp : prototype? callee with
    | none => simp [check, checkArity, Kind.checkFit, hp, bind, Except.bind]
    | some p =>
      cases hadmits : p.admits args.length <;>
        simp [check, checkArity, Kind.checkFit, Kind.demands, Kind.resultTyAmong, Kind.opcode,
          Opcode.text, hp, hadmits, expectAll_eq, bind, Except.bind, pure, Except.pure]
  | ret value =>
    cases value with
    | none => rfl
    | some value => exact hone "ret" value ret .void

/-- An instruction passes `check` iff it `FitsArity` and its `demands` are met. -/
theorem check_eq_ok_iff {ret : Ty} {prototype? : Nat → Option Prototype} {kind : Kind} {ty : Ty} :
    b.check ret prototype? kind = .ok ty ↔
      kind.FitsArity prototype? ∧ (∀ x ∈ kind.demands ret prototype?, b.typeOf x.1 = x.2) ∧
        ty = kind.resultTyAmong prototype? := by
  rw [check_eq, ← Kind.checkFit_eq_ok_iff, ← expectEach_eq_ok_iff kind.opcode.text]
  cases hfit : kind.checkFit prototype? <;>
    cases heach : b.expectEach kind.opcode.text (kind.demands ret prototype?) <;>
      simp [bind, Except.bind, pure, Except.pure, eq_comm]

end Body

/-! ### Steps in place -/

/-- A step that changes a module in place. It leaves a module behind whether it fails or not. -/
abbrev Building := ExceptT BuildError (StateM Module)

namespace Building

variable {α : Type}

/-- The function of an index. -/
def function (i : Nat) : Building Function := do
  match (← get).functions[i]? with
  | some f => return f
  | none => throw (.noSuchFunction i)

/-- The body of a function, if it has one. -/
def body (i : Nat) : Building Body := do
  let f ← function i
  match f.body with
  | some b => return b
  | none => throw (.noBody f.name)

/-- Require the types of the operands, one after the other. -/
def expectEach (i : Nat) (opcode : String) : List (Operand × Ty) → Building Unit
  | [] => return ()
  | (operand, ty) :: demands => do
    let b ← body i
    MonadExcept.ofExcept (b.expect opcode operand ty)
    expectEach i opcode demands

/-- Change the body of a function. -/
def change (i : Nat) (f : Body → α × Body) : Building α := do
  let b ← body i
  modify (·.setBody i (f b).2)
  return (f b).1

/-- Add an instruction at the end of a block that is not ended: take a name for it, put it into the
    arena, and list it in the block. -/
def insert (c : Cursor) (kind : Kind) (ty : Ty) (hint : String) : Building Nat := do
  let b ← body c.function
  match b.blocks[c.block]? with
  | none => throw (.noSuchBlock c.block)
  | some k =>
    if b.isTerminated k then throw (.blockTerminated k.label)
    else
      let name ← change c.function fun b =>
        ((b.freshName (kind.isNamed ty) hint).1,
          { b with names := (b.freshName (kind.isNamed ty) hint).2 })
      let i ← change c.function fun b =>
        (b.instructions.size, { b with instructions := b.instructions.push ⟨kind, ty, name⟩ })
      change c.function fun b => ((), { b with
        blocks := b.blocks.modify c.block fun k =>
          { k with instructions := k.instructions.push i } })
      return i

/-- Add an instruction: check the number of its arguments and the types of its operands, then insert
    it. -/
def emit (c : Cursor) (kind : Kind) (hint : String) : Building Nat := do
  let m ← get
  MonadExcept.ofExcept (kind.checkFit m.prototype?)
  let f ← function c.function
  expectEach c.function kind.opcode.text (kind.demands f.prototype.ret m.prototype?)
  insert c kind (kind.resultTyAmong m.prototype?) hint

/-- Add an empty block: take a name for its label, then put it behind the others. -/
def appendBlock (i : Nat) (label : String) : Building Nat := do
  let label ← change i fun b =>
      ((b.names.fresh label).1, { b with names := (b.names.fresh label).2 })
  change i fun b => (b.blocks.size, { b with blocks := b.blocks.push { label } })

end Building

namespace Module

variable {m : Module} {i : Nat} {b b' : Body}

/-- `m.HasBody i b`: the function at `i` has the body `b`. -/
def HasBody (m : Module) (i : Nat) (b : Body) : Prop :=
  ∃ f, m.functions[i]? = some f ∧ f.body = some b

/-- `setBody` changes the body of one function. -/
theorem getElem?_setBody {f : Function} (hf : m.functions[i]? = some f) (b : Body) :
    (m.setBody i b).functions[i]? = some { f with body := some b } := by
  simp [setBody, Array.getElem?_modify, hf]

/-- `setBody` changes no other function. -/
theorem getElem?_setBody_of_ne {j : Nat} (hne : j ≠ i) (b : Body) :
    (m.setBody i b).functions[j]? = m.functions[j]? := by
  simp [setBody, Array.getElem?_modify, hne.symm]

/-- After `setBody`, the function has the new body. -/
theorem HasBody.setBody (h : m.HasBody i b) (b' : Body) : (m.setBody i b').HasBody i b' := by
  obtain ⟨f, hf, -⟩ := h
  exact ⟨_, getElem?_setBody hf b', rfl⟩

/-- Of two bodies for one function the second one stays. -/
theorem setBody_setBody (m : Module) (i : Nat) (b b' : Body) :
    (m.setBody i b).setBody i b' = m.setBody i b' := by
  have hfunctions : ((m.setBody i b).setBody i b').functions = (m.setBody i b').functions := by
    apply Array.ext_getElem?
    intro j
    simp only [setBody, Array.getElem?_modify]
    by_cases h : i = j <;> simp [h, Function.comp_def]
  exact congrArg (fun functions => { m with functions }) hfunctions

end Module

namespace Building

open Straightline.Module

variable {α : Type} {m : Module} {c : Cursor} {i : Nat} {f : Function} {b : Body}

/-- `function` finds a function that there is, and changes nothing. -/
theorem function_eq (hf : m.functions[i]? = some f) : function i m = (.ok f, m) := by
  have hget : (get : Building Module) m = (.ok m, m) := rfl
  rw [function, bind_of_ok hget, hf]
  rfl

/-- `body` finds a body that there is, and changes nothing. -/
theorem body_eq (h : m.HasBody i b) : body i m = (.ok b, m) := by
  obtain ⟨f, hf, hb⟩ := h
  rw [body, bind_of_ok (function_eq hf), hb]
  rfl

/-- `body` fails if there is none. -/
theorem body_of_none (hf : m.functions[i]? = some f) (hb : f.body = none) :
    body i m = (.error (.noBody f.name), m) := by
  rw [body, bind_of_ok (function_eq hf), hb]
  rfl

/-- `change` does `f` to a body that there is. -/
theorem change_eq (h : m.HasBody i b) (f : Body → α × Body) :
    change i f m = (.ok (f b).1, m.setBody i (f b).2) := by
  rw [change, bind_of_ok (body_eq h)]
  rfl

/-- `Building.expectEach` is `Body.expectEach`, and changes nothing. -/
theorem expectEach_eq (h : m.HasBody i b) (opcode : String) (demands : List (Operand × Ty)) :
    expectEach i opcode demands m = (b.expectEach opcode demands, m) := by
  induction demands with
  | nil => rfl
  | cons x demands ih =>
    obtain ⟨operand, ty⟩ := x
    rw [expectEach, Body.expectEach, bind_of_ok (body_eq h)]
    cases hx : b.expect opcode operand ty with
    -- The first operand that does not fit ends it on both sides, with the module as it was.
    | error e =>
      rw [bind_of_error (ofExcept_eq _)]
      rfl
    | ok =>
      rw [bind_of_ok (ofExcept_eq _), ih]
      rfl

/-- `insert` refuses a block that is ended, and changes nothing. -/
theorem insert_of_terminated (h : m.HasBody c.function b) {k : Block}
    (hk : b.blocks[c.block]? = some k) (hended : b.isTerminated k = true) (kind : Kind) (ty : Ty)
    (hint : String) :
    insert c kind ty hint m = (.error (.blockTerminated k.label), m) := by
  rw [insert, bind_of_ok (body_eq h), hk]
  simp only [hended, if_true]
  rfl

/-- `insert` makes three changes, which amount to `Body.push`. -/
theorem insert_of_open (h : m.HasBody c.function b) {k : Block} (hk : b.blocks[c.block]? = some k)
    (hopen : b.isTerminated k = false) (kind : Kind) (ty : Ty) (hint : String) :
    insert c kind ty hint m =
      (.ok b.instructions.size, m.setBody c.function (b.push c.block kind ty hint)) := by
  rw [insert, bind_of_ok (body_eq h), hk]
  simp only [hopen, Bool.false_eq_true, if_false]
  -- Each change is made to the body that the one before it has left.
  rw [bind_of_ok (change_eq h _), bind_of_ok (change_eq (h.setBody _) _),
    bind_of_ok (change_eq ((h.setBody _).setBody _) _), setBody_setBody, setBody_setBody]
  rfl

/-- Without a body, the types of operands are either not asked for or cannot be told. -/
theorem expectEach_of_none (hf : m.functions[i]? = some f) (hb : f.body = none) (opcode : String)
    (demands : List (Operand × Ty)) :
    expectEach i opcode demands m = (.ok (), m) ∨
    expectEach i opcode demands m = (.error (.noBody f.name), m) := by
  cases demands with
  | nil => exact .inl rfl
  | cons x demands => exact .inr (bind_of_error (body_of_none hf hb))

end Building

/-! ### In place and at once -/

namespace Module

variable {m : Module} {c : Cursor} {f : Function}

/-- Without a body, `m.emit` fails, and only a wrong number of arguments is noticed before. -/
theorem emit_of_none (hf : m.functions[c.function]? = some f) (hb : f.body = none) (kind : Kind)
    (hint : String) :
    m.emit c kind hint = (kind.checkFit m.prototype? >>= fun _ => .error (.noBody f.name)) := by
  cases kind with
  | call callee args =>
    cases harity : checkArity m.prototype? callee args <;>
      simp [emit, hf, hb, Kind.checkFit, harity, bind, Except.bind, pure, Except.pure]
  | _ =>
    simp only [emit, hf, hb]
    rfl

/-- With a body, `m.emit` checks an instruction, and then pushes it unless the block is ended. -/
theorem emit_of_some (hf : m.functions[c.function]? = some f) {b : Body} (hb : f.body = some b)
    {k : Block} (hk : b.blocks[c.block]? = some k) (kind : Kind) (hint : String) :
    m.emit c kind hint = (b.check f.prototype.ret m.prototype? kind >>= fun ty =>
      if b.isTerminated k then .error (.blockTerminated k.label)
      else .ok (b.instructions.size, m.setBody c.function (b.push c.block kind ty hint))) := by
  simp only [emit, hf, hb, Body.emit]
  cases b.check f.prototype.ret m.prototype? kind with
  | error e => rfl
  | ok ty =>
    simp only [bind, Except.bind, hk]
    cases b.isTerminated k <;> rfl

end Module

namespace Building

open Straightline.Module

variable {m : Module} {c : Cursor} {f : Function}

/-- `Building.emit` does what `Module.emit` does at once. If that fails, the module is left as it
    was. -/
theorem emit_eq (hf : m.functions[c.function]? = some f)
    (hblock : ∀ b, f.body = some b → c.block < b.blocks.size) (kind : Kind) (hint : String) :
    emit c kind hint m = settle m (m.emit c kind hint) := by
  have hget : (get : Building Module) m = (.ok m, m) := rfl
  rw [emit, bind_of_ok hget]
  -- The number of arguments is checked first, whether there is a body or not.
  cases hfit : kind.checkFit m.prototype? with
  | error e =>
    have hemit : m.emit c kind hint = .error e := by
      cases hb : f.body with
      | none => rw [emit_of_none hf hb, hfit]; rfl
      | some b =>
        rw [emit_of_some hf hb (Array.getElem?_eq_getElem (hblock b hb)), Body.check_eq, hfit]
        rfl
    rw [bind_of_error (ofExcept_eq _), hemit]
    rfl
  | ok =>
    rw [bind_of_ok (ofExcept_eq _), bind_of_ok (function_eq hf)]
    cases hb : f.body with
    | none =>
      have hemit : m.emit c kind hint = .error (.noBody f.name) := by
        rw [emit_of_none hf hb, hfit]
        rfl
      rw [hemit]
      -- A demand on an operand finds no body, and without one the insertion finds none.
      rcases expectEach_of_none hf hb kind.opcode.text
        (kind.demands f.prototype.ret m.prototype?) with h | h
      · rw [bind_of_ok h]
        exact bind_of_error (body_of_none hf hb)
      · exact bind_of_error h
    | some b =>
      have hbody : m.HasBody c.function b := ⟨f, hf, hb⟩
      obtain ⟨k, hk⟩ : ∃ k, b.blocks[c.block]? = some k :=
        ⟨_, Array.getElem?_eq_getElem (hblock b hb)⟩
      have heach := expectEach_eq hbody kind.opcode.text (kind.demands f.prototype.ret m.prototype?)
      rw [emit_of_some hf hb hk, Body.check_eq, hfit]
      cases hdemands : b.expectEach kind.opcode.text
          (kind.demands f.prototype.ret m.prototype?) with
      | error e =>
        rw [hdemands] at heach
        exact bind_of_error heach
      | ok =>
        rw [hdemands] at heach
        rw [bind_of_ok heach]
        cases hended : b.isTerminated k with
        | true => exact insert_of_terminated hbody hk hended ..
        | false => exact insert_of_open hbody hk hended ..

/-- `Building.appendBlock` does what `Module.appendBlock` does at once. -/
theorem appendBlock_eq {i : Nat} (hf : m.functions[i]? = some f) (label : String) :
    appendBlock i label m = settle m (m.appendBlock i label) := by
  cases hb : f.body with
  | none =>
    have happend : m.appendBlock i label = .error (.noBody f.name) := by
      simp [Module.appendBlock, hf, hb]
    rw [happend]
    -- Without a body the first change is refused, before a name is taken.
    exact bind_of_error (bind_of_error (body_of_none hf hb))
  | some b =>
    have hbody : m.HasBody i b := ⟨f, hf, hb⟩
    have happend : m.appendBlock i label =
        .ok (b.blocks.size, m.setBody i (b.appendBlock label).2) := by
      simp [Module.appendBlock, hf, hb, Body.appendBlock]
    -- Two changes of the same body, for the name and for the block, are one.
    rw [happend, appendBlock, bind_of_ok (change_eq hbody _), change_eq (hbody.setBody _),
      setBody_setBody]
    rfl

end Building

/-! ### What a step changes -/

/-- `b.EndsInRet block`: the last instruction of the block is a return. -/
def Body.EndsInRet (b : Body) (block : Nat) : Prop :=
  ∃ k i inst value, b.blocks[block]? = some k ∧ k.instructions.back? = some i ∧
    b.instructions[i]? = some inst ∧
    inst.kind = .ret value

/-- `b.AddsInstruction b' block inst hint`: `b'` has one instruction more, at the end of the arena
    and of the block. Its name is a fresh one for the hint; without a name, none is taken. -/
structure Body.AddsInstruction (b b' : Body) (block : Nat) (inst : Instruction)
    (hint : String) : Prop where
  instructions : b'.instructions = b.instructions.push inst
  extended : ∃ k, b.blocks[block]? = some k ∧
    b'.blocks[block]? = some { k with instructions := k.instructions.push b.instructions.size }
  otherBlocks : ∀ j, j ≠ block → b'.blocks[j]? = b.blocks[j]?
  names : (inst.name = none ∧ b'.names = b.names) ∨
    inst.name = some (b.names.fresh hint).1 ∧ b'.names = (b.names.fresh hint).2

/-- `b.AddsBlock b' hint`: `b'` has one block more, an empty one behind the others. Its label is a
    fresh one for the hint. -/
structure Body.AddsBlock (b b' : Body) (hint : String) : Prop where
  instructions : b'.instructions = b.instructions
  blocks : b'.blocks = b.blocks.push ⟨(b.names.fresh hint).1, #[]⟩
  names : b'.names = (b.names.fresh hint).2

/-- `m.ChangesBody m' i b b'`: in `m'`, the function at `i` has the body `b'` instead of `b`, and
    everything else is the same. -/
structure Module.ChangesBody (m m' : Module) (i : Nat) (b b' : Body) : Prop where
  name : m'.name = m.name
  globals : m'.globals = m.globals
  byName : m'.byName = m.byName
  function : ∃ f, m.functions[i]? = some f ∧ f.body = some b ∧
    m'.functions[i]? = some { f with body := some b' }
  otherFunctions : ∀ j, j ≠ i → m'.functions[j]? = m.functions[j]?

/-- `isTerminated` looks at the last instruction of a block. -/
theorem Body.isTerminated_iff {b : Body} {block : Nat} {k : Block}
    (hk : b.blocks[block]? = some k) :
    b.isTerminated k = true ↔ b.EndsInRet block := by
  have hret : ∀ kind : Kind, kind.isTerminator = true ↔ ∃ value, kind = .ret value := by
    intro kind
    cases kind <;> simp [Kind.isTerminator]
  unfold isTerminated EndsInRet
  cases hback : k.instructions.back? with
  | none => simp [hk, hback]
  | some i => cases hi : b.instructions[i]? <;> simp [hk, hback, hi, hret]

/-- `Body.push` adds one instruction. -/
theorem Body.addsInstruction_push {b : Body} {block : Nat} {k : Block}
    (hk : b.blocks[block]? = some k) (kind : Kind) (ty : Ty) (hint : String) :
    b.AddsInstruction (b.push block kind ty hint) block (b.pushed kind ty hint) hint where
  instructions := instructions_push_eq ..
  extended := by
    refine ⟨k, hk, ?_⟩
    simp [push, Array.getElem?_modify, hk]
  otherBlocks j hj := by simp [push, Array.getElem?_modify, hj.symm]
  names := by
    cases hnamed : kind.isNamed ty with
    | false => exact .inl (by simp [pushed, push, freshName, hnamed])
    | true => exact .inr (by simp [pushed, push, freshName, hnamed])

/-- `Body.appendBlock` adds one block. -/
theorem Body.addsBlock_appendBlock (b : Body) (hint : String) :
    b.AddsBlock (b.appendBlock hint).2 hint :=
  ⟨rfl, rfl, rfl⟩

/-- `setBody` changes one body. -/
theorem Module.changesBody_setBody {m : Module} {i : Nat} {f : Function}
    (hf : m.functions[i]? = some f) {b : Body} (hb : f.body = some b) (b' : Body) :
    m.ChangesBody (m.setBody i b') i b b' where
  name := rfl
  globals := rfl
  byName := rfl
  function := ⟨f, hf, hb, getElem?_setBody hf b'⟩
  otherFunctions _ hj := getElem?_setBody_of_ne hj b'

/-! ### All or nothing -/

section

variable {m m' : Module} {c : Cursor} {f : Function} {kind : Kind} {hint : String} {i : Nat}
  (hf : m.functions[c.function]? = some f) (hblock : ∀ b, f.body = some b → c.block < b.blocks.size)

include hf hblock

/-- `m.emit` succeeds iff there is a body, the block is not ended, and the instruction passes
    `check`. It then does `Body.push`. -/
theorem Module.emit_eq_ok_iff :
    m.emit c kind hint = .ok (i, m') ↔ ∃ b, f.body = some b ∧ ¬ b.EndsInRet c.block ∧
      (∀ x ∈ kind.demands f.prototype.ret m.prototype?, b.typeOf x.1 = x.2) ∧
      kind.FitsArity m.prototype? ∧
        i = b.instructions.size ∧
          m' = m.setBody c.function
            (b.push c.block kind (kind.resultTyAmong m.prototype?) hint) := by
  constructor
  · intro h
    cases hb : f.body with
    | none =>
      rw [emit_of_none hf hb] at h
      cases hfit : kind.checkFit m.prototype? <;> simp [hfit, bind, Except.bind] at h
    | some b =>
      -- From here on the checks are passed one by one.
      obtain ⟨k, hk⟩ : ∃ k, b.blocks[c.block]? = some k :=
        ⟨_, Array.getElem?_eq_getElem (hblock b hb)⟩
      rw [emit_of_some hf hb hk] at h
      cases hcheck : b.check f.prototype.ret m.prototype? kind with
      | error e => simp [hcheck, bind, Except.bind] at h
      | ok ty =>
        obtain ⟨hfit, hdemands, rfl⟩ := Body.check_eq_ok_iff.mp hcheck
        cases hended : b.isTerminated k with
        | true => simp [hcheck, hended, bind, Except.bind] at h
        | false =>
          simp only [hcheck, hended, bind, Except.bind, Bool.false_eq_true, if_false] at h
          obtain ⟨rfl, rfl⟩ := Prod.mk.inj (Except.ok.inj h)
          refine ⟨b, rfl, ?_, hdemands, hfit, rfl, rfl⟩
          simp [← Body.isTerminated_iff hk, hended]
  · rintro ⟨b, hb, hret, hdemands, hfit, rfl, rfl⟩
    obtain ⟨k, hk⟩ : ∃ k, b.blocks[c.block]? = some k :=
      ⟨_, Array.getElem?_eq_getElem (hblock b hb)⟩
    have hended : b.isTerminated k = false := by simpa [← Body.isTerminated_iff hk] using hret
    rw [emit_of_some hf hb hk, Body.check_eq_ok_iff.mpr ⟨hfit, hdemands, rfl⟩]
    simp [hended, bind, Except.bind]

/-- `m.emit` fails iff there is no body, the block is ended, an operand has the wrong type, or the
    number of arguments is wrong. -/
theorem Module.exists_emit_eq_error_iff :
    (∃ e, m.emit c kind hint = .error e) ↔ f.body = none ∨
      (∃ b, f.body = some b ∧ b.EndsInRet c.block) ∨
      (∃ b, f.body = some b ∧ ∃ x ∈ kind.demands f.prototype.ret m.prototype?, b.typeOf x.1 ≠ x.2) ∨
        ¬ kind.FitsArity m.prototype? := by
  -- What is refused is what is not added, so the reasons are the conditions there, each denied.
  have hresult : (∃ e, m.emit c kind hint = .error e) ↔
      ¬ ∃ i m', m.emit c kind hint = .ok (i, m') := by
    rcases m.emit c kind hint with e | ⟨i, m'⟩ <;> simp
  rw [hresult]
  simp only [emit_eq_ok_iff hf hblock]
  cases hb : f.body with
  | none => simp
  | some b =>
    simp only [Option.some.injEq, exists_eq_left', reduceCtorEq, false_or, exists_and_left,
      exists_eq, and_true, not_and_or, not_not, not_forall, exists_prop]

end

/-- A call that does not fit its callee passes too few arguments, or too many for one that is not
    variadic. -/
theorem Kind.not_fitsArity_iff {prototype? : Nat → Option Prototype} {kind : Kind}
    (hcallee : ∀ callee args, kind = .call callee args → ∃ p, prototype? callee = some p) :
    ¬ kind.FitsArity prototype? ↔ ∃ callee args p, kind = .call callee args ∧
      prototype? callee = some p ∧
      (args.length < p.params.length ∨ p.variadic = false ∧ args.length ≠ p.params.length) := by
  cases kind with
  | call callee args =>
    obtain ⟨p, hp⟩ := hcallee callee args rfl
    simp only [FitsArity, hp, Option.some.injEq, exists_eq_left', not_and_or, Classical.not_imp,
      Nat.not_le, Kind.call.injEq]
    constructor
    · exact fun h => ⟨callee, args, p, ⟨rfl, rfl⟩, hp, h⟩
    · rintro ⟨_, _, p', ⟨rfl, rfl⟩, hp', h⟩
      obtain rfl : p = p' := Option.some.inj (hp.symm.trans hp')
      exact h
  | _ => simp [FitsArity]

/-- A step of a builder is made as a whole or not at all, whatever the module. The cursor is at a
    function that there is and, if it has a body, at a block of it; a callee is a function that
    there is. If `Building.emit` fails, it leaves the module as it was. If it succeeds, the
    instruction is put at the end of the arena and of the block, with its kind and the type of its
    result, and nothing else changes. It fails iff there is no body, the block ends in a return, an
    operand that is checked has the wrong type, or the number of arguments does not fit.
    `Building.appendBlock` does the same with a block, except that only a missing body is a reason
    to fail. -/
theorem building_atomic {m : Module} {c : Cursor} {f : Function}
    (hf : m.functions[c.function]? = some f)
    (hblock : ∀ b, f.body = some b → c.block < b.blocks.size) {kind : Kind}
    (hcallee : ∀ callee args, kind = .call callee args → callee < m.functions.size)
    (hint label : String) :
    ((∀ e m', Building.emit c kind hint m = (.error e, m') → m' = m ∧
      m.emit c kind hint = .error e) ∧
      (∀ i m', Building.emit c kind hint m = (.ok i, m') → m.emit c kind hint = .ok (i, m') ∧
        ∃ b b' inst, m.ChangesBody m' c.function b b' ∧ b.AddsInstruction b' c.block inst hint ∧
          i = b.instructions.size ∧ inst.kind = kind ∧ inst.ty = kind.resultTyAmong m.prototype? ∧
            (inst.name = none ↔ kind.IsUnnamed m.prototype?)) ∧
      ((∃ e m', Building.emit c kind hint m = (.error e, m')) ↔
        f.body = none ∨ (∃ b, f.body = some b ∧ b.EndsInRet c.block) ∨
          (∃ b, f.body = some b ∧ ∃ x ∈ kind.demands f.prototype.ret m.prototype?,
            b.typeOf x.1 ≠ x.2) ∨
            ∃ callee args p, kind = .call callee args ∧ m.prototype? callee = some p ∧
              (args.length < p.params.length ∨ p.variadic = false ∧
              args.length ≠ p.params.length))) ∧
    ((∀ e m', Building.appendBlock c.function label m = (.error e, m') →
        m' = m ∧ m.appendBlock c.function label = .error e) ∧
      (∀ i m', Building.appendBlock c.function label m = (.ok i, m') →
        m.appendBlock c.function label = .ok (i, m') ∧
          ∃ b b', m.ChangesBody m' c.function b b' ∧ b.AddsBlock b' label ∧ i = b.blocks.size) ∧
      ((∃ e m', Building.appendBlock c.function label m = (.error e, m')) ↔ f.body = none)) := by
  -- The steps in place come to what `emit` and `appendBlock` say at once.
  obtain ⟨hemitOk, hemitError⟩ := eq_of_settled (Building.emit_eq hf hblock kind hint)
  obtain ⟨hblockOk, hblockError⟩ := eq_of_settled (Building.appendBlock_eq hf label)
  refine ⟨⟨fun e m' h => (hemitError e m').mp h, fun i m' h => ⟨(hemitOk i m').mp h, ?_⟩, ?_⟩,
    fun e m' h => (hblockError e m').mp h, fun i m' h => ⟨(hblockOk i m').mp h, ?_⟩, ?_⟩
  · obtain ⟨b, hb, -, hdemands, hfit, rfl, rfl⟩ :=
      (Module.emit_eq_ok_iff hf hblock).mp ((hemitOk i m').mp h)
    obtain ⟨k, hk⟩ : ∃ k, b.blocks[c.block]? = some k :=
      ⟨_, Array.getElem?_eq_getElem (hblock b hb)⟩
    have hcheck : b.check f.prototype.ret m.prototype? kind =
        .ok (kind.resultTyAmong m.prototype?) :=
      Body.check_eq_ok_iff.mpr ⟨hfit, hdemands, rfl⟩
    exact ⟨b, _, _, Module.changesBody_setBody hf hb _, Body.addsInstruction_push hk ..,
      rfl, rfl, rfl, (b.freshName_eq_none_iff _ hint).trans (Body.isNamed_eq_false_iff hcheck)⟩
  · simp only [hemitError, exists_eq_left]
    rw [Module.exists_emit_eq_error_iff hf hblock, Kind.not_fitsArity_iff]
    -- A callee that exists has a prototype, so that only the number of arguments can be wrong.
    intro callee args hkind
    obtain ⟨g, hg⟩ : ∃ g, m.functions[callee]? = some g :=
      ⟨_, Array.getElem?_eq_getElem (hcallee callee args hkind)⟩
    exact ⟨g.prototype, by simp [Module.prototype?, hg]⟩
  · have happend := (hblockOk i m').mp h
    cases hb : f.body with
    | none => simp [Module.appendBlock, hf, hb] at happend
    | some b =>
      simp only [Module.appendBlock, hf, hb, Except.ok.injEq, Prod.mk.injEq] at happend
      obtain ⟨rfl, rfl⟩ := happend
      exact ⟨b, _, Module.changesBody_setBody hf hb _, b.addsBlock_appendBlock label, rfl⟩
  · simp only [hblockError, exists_eq_left]
    cases hb : f.body <;> simp [Module.appendBlock, hf, hb]

/-- A function with one empty block, and one that is only declared. -/
def twoFunctions : Module :=
  BuildStep.build "sample" [.addFunction ⟨"main", .i32, [], false⟩ true,
    .addFunction ⟨"printf", .i32, [.ptr], true⟩ false, .appendBlock 0 "entry"]

/-- A call without the argument that its callee needs leaves nothing behind. One with it is added,
    and takes a name. -/
theorem building_atomic_sample :
    (∃ e, Building.emit ⟨0, 0⟩ (.call 1 []) "entry" twoFunctions = (.error e, twoFunctions)) ∧
      ∃ m' b b' inst,
        Building.emit ⟨0, 0⟩ (.call 1 [.global 0]) "entry" twoFunctions = (.ok 0, m') ∧
        twoFunctions.ChangesBody m' 0 b b' ∧ b.AddsInstruction b' 0 inst "entry" ∧
        inst.name ≠ none := by
  obtain ⟨f, hf, hfunction⟩ : ∃ f, twoFunctions.functions[0]? = some f ∧
      ∀ b, f.body = some b → 0 < b.blocks.size :=
    ⟨_, rfl, by rintro b ⟨⟩; decide⟩
  -- Both functions can be called, and the second takes a pointer and more.
  have hcallee : ∀ given callee args, Kind.call 1 given = .call callee args →
      callee < twoFunctions.functions.size := by
    rintro _ _ _ ⟨⟩
    decide
  constructor
  · obtain ⟨⟨hunchanged, -, hfails⟩, -⟩ :=
      building_atomic (c := ⟨0, 0⟩) hf hfunction (hcallee []) "entry" "next"
    obtain ⟨e, m', h⟩ := hfails.mpr (.inr (.inr (.inr ⟨1, [], _, rfl, rfl, .inl (by decide)⟩)))
    exact ⟨e, by rw [h, (hunchanged e m' h).1]⟩
  · obtain ⟨⟨-, hadded, -⟩, -⟩ :=
      building_atomic (c := ⟨0, 0⟩) hf hfunction (hcallee [.global 0]) "entry" "next"
    have h : Building.emit ⟨0, 0⟩ (.call 1 [.global 0]) "entry" twoFunctions = (.ok 0, _) := rfl
    obtain ⟨-, b, b', inst, hchanges, hadds, -, -, -, hname⟩ := hadded 0 _ h
    exact ⟨_, b, b', inst, h, hchanges, hadds, hname.not.mpr (by rintro ⟨p, ⟨⟩, h⟩; cases h)⟩

end Straightline
