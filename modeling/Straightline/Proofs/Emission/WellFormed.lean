import Straightline.Proofs.Emission.Calls
import Straightline.Proofs.Ir.Words

/-!
# Well-formed programs

* `Body.Fits` says what the operands of an instruction have to be.
* `Draft.Sound` says that every instruction of a draft fits, uses earlier results only, and has the
  type and the name that belong to it. It holds of all drafts that calls lead to:
  `Draft.Built.sound`.
* `Module.WellFormed` puts this in terms of the module.
-/

namespace Straightline

open Draft

/-! ### Instructions that fit -/

namespace Kind

/-- What an instruction works on, from left to right. -/
def operands : Kind → List Operand
  | alloca _ => []
  | load _ ptr => [ptr]
  | store value ptr => [value, ptr]
  | binary _ lhs rhs => [lhs, rhs]
  | compare _ lhs rhs => [lhs, rhs]
  | widen value => [value]
  | call _ args => args
  | ret value => value.toList

/-- The type of an instruction's result, where calls are calls of `printf`. -/
def resultTy : Kind → Ty
  | alloca _ => .ptr
  | load ty _ => ty
  | store .. => .void
  | binary .. => .double
  | compare .. => .i1
  | widen _ => .double
  | call .. => printfPrototype.ret
  | ret _ => .void

/-- Whether an instruction is a call. -/
def isCall : Kind → Bool
  | call .. => true
  | _ => false

end Kind

namespace Body

/-- `b.IsSlot x`: `x` is the address of a slot for a double. -/
def IsSlot (b : Body) (x : Operand) : Prop :=
  ∃ i inst, x = .inst i ∧ b.instructions[i]? = some inst ∧ inst.kind = .alloca .double

/-- `b.Fits globals kind`: the operands of an instruction are what they have to be, where there are
    `globals` constants. The callee is the function behind `main`. -/
def Fits (b : Body) (globals : Nat) : Kind → Prop
  | .alloca ty => ty = .double
  | .load ty ptr => ty = .double ∧ b.IsSlot ptr
  | .store _ ptr => b.IsSlot ptr
  | .binary _ lhs rhs => b.typeOf lhs = .double ∧ b.typeOf rhs = .double
  | .compare _ lhs rhs => b.typeOf lhs = .double ∧ b.typeOf rhs = .double
  | .widen value => b.typeOf value = .i1
  | .call callee args => callee = 1 ∧ ∃ k < globals, ∃ x, args = [.global k, x]
  | .ret value => value = some (.i32 0)

/-- Whether there is a call. -/
def hasCall (b : Body) : Bool := b.instructions.any (·.kind.isCall)

variable {b b' : Body}

/-- An operand whose type is not `void` keeps it while instructions are added. -/
theorem Keeps.typeOf (h : b.Keeps b') {x : Operand} (hx : b.typeOf x ≠ .void) :
    b'.typeOf x = b.typeOf x := by
  cases x with
  | double | i32 | global => rfl
  | inst i =>
    unfold Body.typeOf at hx ⊢
    cases hi : b.instructions[i]? with
    | none => simp [hi] at hx
    | some inst => simp only [hi, h i inst hi]

/-- A slot stays one while instructions are added. -/
theorem IsSlot.keeps {x : Operand} (hx : b.IsSlot x) (h : b.Keeps b') : b'.IsSlot x := by
  obtain ⟨i, inst, hi, hinst, hkind⟩ := hx
  exact ⟨i, inst, hi, h i inst hinst, hkind⟩

/-- What fits goes on to do so while instructions and constants are added. -/
theorem Fits.keeps {n n' : Nat} {kind : Kind} (hk : b.Fits n kind) (h : b.Keeps b') (hle : n ≤ n') :
    b'.Fits n' kind := by
  -- Operands with a type keep it when instructions are added.
  have hty : ∀ {x : Operand} {ty : Ty}, ty ≠ .void → b.typeOf x = ty → b'.typeOf x = ty := by
    intro x ty hne hx
    rw [h.typeOf (hx ▸ hne), hx]
  cases kind with
  | alloca ty => exact hk
  | load ty ptr => exact ⟨hk.1, hk.2.keeps h⟩
  | store value ptr => exact IsSlot.keeps hk h
  | binary op lhs rhs => exact ⟨hty (by decide) hk.1, hty (by decide) hk.2⟩
  | compare condition lhs rhs => exact ⟨hty (by decide) hk.1, hty (by decide) hk.2⟩
  | widen value => exact hty (by decide) hk
  | call callee args =>
    obtain ⟨hcallee, k, hlt, x, hargs⟩ := hk
    exact ⟨hcallee, k, Nat.lt_of_lt_of_le hlt hle, x, hargs⟩
  | ret value => exact hk

end Body

/-! ### Sound drafts -/

namespace Draft

/-- What is usable can be written: a result has a name, and a constant is in the module. -/
theorem IsUsable.isNamed {d : Draft} {j : Nat} {x : Operand} (h : d.IsUsable j x) (name : String) :
    d.body.IsNamed (d.module name) x := by
  cases x with
  | double | i32 => trivial
  | inst i => exact h.2
  | global k =>
    refine ⟨_, Array.getElem?_eq_getElem ?_⟩
    rw [Draft.module, Array.size_mapIdx]
    exact h

/-- `d.SoundAt j inst`: the instruction has its type, its name and its operands as it should at
    `j`. -/
structure SoundAt (d : Draft) (j : Nat) (inst : Instruction) : Prop where
  ty : inst.ty = inst.kind.resultTy
  named : inst.name.isSome = inst.kind.isNamed inst.ty
  usable : ∀ x ∈ inst.kind.operands, d.IsUsable j x
  fits : d.body.Fits d.constants.size inst.kind

/-- `d.Sound`: all instructions of `d` are `SoundAt` their places. -/
def Sound (d : Draft) : Prop :=
  ∀ (j : Nat) (inst : Instruction), d.instructions[j]? = some inst → d.SoundAt j inst

/-- A sound instruction stays so while instructions and constants are added. -/
theorem SoundAt.keeps {d d' : Draft} {j : Nat} {inst : Instruction} (h : d.SoundAt j inst)
    (hb : d.body.Keeps d'.body) (hle : d.constants.size ≤ d'.constants.size) :
    d'.SoundAt j inst where
  ty := h.ty
  named := h.named
  usable x hx := (h.usable x hx).keeps hb hle
  fits := h.fits.keeps hb hle

/-- `push` keeps all instructions. -/
theorem keeps_of_push {d d' : Draft} {inst : Instruction}
    (h : d'.instructions = d.instructions.push inst) : d.body.Keeps d'.body := by
  intro i a hi
  have hlt : i < d.instructions.size := (Array.getElem?_eq_some_iff.mp hi).1
  rw [instructions_body, h, Array.getElem?_push_lt hlt]
  exact (Array.getElem?_eq_getElem hlt).symm.trans hi

/-- One more sound instruction keeps a draft sound. -/
theorem Sound.append {d d' : Draft} (hd : d.Sound) {inst : Instruction}
    (hpush : d'.instructions = d.instructions.push inst)
    (hle : d.constants.size ≤ d'.constants.size) (hinst : d'.SoundAt d.instructions.size inst) :
    d'.Sound := by
  intro j a ha
  rw [hpush, Array.getElem?_push] at ha
  split at ha
  · next hj =>
    obtain rfl := Option.some.inj ha
    rwa [hj]
  · exact (hd j a ha).keeps (keeps_of_push hpush) hle

/-- What is available to the next instruction is usable by it, once it is there. -/
theorem IsAvailable.usable {d d' : Draft} {x : Operand} (hx : d.IsAvailable x) {inst : Instruction}
    (hpush : d'.instructions = d.instructions.push inst)
    (hle : d.constants.size ≤ d'.constants.size) :
    d'.IsUsable d.instructions.size x :=
  IsUsable.keeps hx (keeps_of_push hpush) hle

/-- The slot of a variable is a slot for a double, and it is available. -/
theorem Valid.isSlot {d : Draft} (hd : d.Valid) {name : String} {v : Variable}
    (hv : d.lookup? name = some v) :
    d.body.IsSlot (.inst (d.slot name)) ∧ d.IsAvailable (.inst (d.slot name)) := by
  obtain ⟨label, hi⟩ := hd.alloca v (mem_of_lookup? hv)
  rw [slot_of_lookup? hv]
  exact ⟨⟨_, _, rfl, hi, rfl⟩, hd.slot_lt (mem_of_lookup? hv), _, _, hi, rfl⟩

/-- `printf` pushes one call. -/
theorem instructions_printf (d : Draft) (format : String) (x : Operand) :
    (d.printf format x).instructions = d.instructions.push
      ⟨.call 1 [.global d.constants.size, x], .i32, d.nextName (some "printfCall")⟩ := by
  simp [printf, constant, nextName]

namespace Sound

variable {d : Draft}

/-- An instruction with a name that fits and whose operands are available keeps a draft sound. -/
theorem push (hd : d.Sound) {kind : Kind} {hint : String} (hn : kind.isNamed kind.resultTy = true)
    (hx : ∀ x ∈ kind.operands, d.IsAvailable x) (hk : d.body.Fits d.constants.size kind) :
    (d.push kind kind.resultTy (some hint)).Sound := by
  have hpush := d.instructions_push kind kind.resultTy (some hint)
  have hle : d.constants.size ≤ (d.push kind kind.resultTy (some hint)).constants.size :=
    Nat.le_of_eq (by rw [constants_push])
  exact hd.append hpush hle ⟨rfl, hn.symm, fun x hmem => (hx x hmem).usable hpush hle,
    hk.keeps (keeps_of_push hpush) hle⟩

/-- `declare` keeps a draft sound. -/
theorem declare (hd : d.Sound) (name : String) : (d.declare name).Sound := by
  cases hv : d.lookup? name with
  | some v => rwa [declare_of_lookup? hv]
  | none =>
    have hle : d.constants.size ≤ (d.declare name).constants.size :=
      (Grows.declare name .refl).size_constants
    exact hd.append (instructions_declare_of_new hv) hle ⟨rfl, rfl, List.forall_mem_nil _, rfl⟩

/-- `store` to a variable keeps a draft sound. -/
theorem store (hd : d.Sound) (hvalid : d.Valid) {name : String} {v : Variable}
    (hv : d.lookup? name = some v) {x : Operand} (hx : d.IsAvailable x) :
    (d.store name x).Sound := by
  obtain ⟨hslot, hptr⟩ := hvalid.isSlot hv
  have hpush := d.instructions_store name x
  refine hd.append hpush (Nat.le_refl _) ⟨rfl, rfl, ?_, hslot.keeps (keeps_of_push hpush)⟩
  have hoperands : ∀ y ∈ [x, .inst (d.slot name)], d.IsAvailable y := by simp [hx, hptr]
  exact fun y hy => (hoperands y hy).usable hpush (Nat.le_refl _)

/-- A load from a variable keeps a draft sound. -/
theorem load (hd : d.Sound) (hvalid : d.Valid) {name : String} {v : Variable}
    (hv : d.lookup? name = some v) :
    (d.push (.load .double (.inst (d.slot name))) .double (some name)).Sound := by
  obtain ⟨hslot, hptr⟩ := hvalid.isSlot hv
  exact hd.push rfl (List.forall_mem_singleton.mpr hptr) ⟨rfl, hslot⟩

/-- An operator on two doubles keeps a draft sound. -/
theorem operate (hd : d.Sound) (op : Operator) {x y : Operand} (hx : d.IsAvailable x)
    (hy : d.IsAvailable y) (hxty : d.body.typeOf x = .double) (hyty : d.body.typeOf y = .double) :
    (d.push (op.kind x y) op.ty (some op.hint)).Sound := by
  have hoperands : ∀ z ∈ [x, y], d.IsAvailable z := by simp [hx, hy]
  cases op with
  | arithmetic op => exact hd.push rfl hoperands ⟨hxty, hyty⟩
  | comparison condition => exact hd.push rfl hoperands ⟨hxty, hyty⟩

/-- `printf` keeps a draft sound. -/
theorem printf (hd : d.Sound) (format : String) {x : Operand} (hx : d.IsAvailable x) :
    (d.printf format x).Sound := by
  have hlt : d.constants.size < (d.printf format x).constants.size := by
    simp [Draft.printf, Draft.constant]
  have hpush := d.instructions_printf format x
  refine hd.append hpush (Nat.le_of_lt hlt) ⟨rfl, rfl, ?_, rfl, _, hlt, x, rfl⟩
  refine List.forall_mem_cons.mpr ⟨hlt, List.forall_mem_singleton.mpr ?_⟩
  exact hx.usable hpush (Nat.le_of_lt hlt)

/-- A constant keeps a draft sound. -/
theorem constant (hd : d.Sound) (text : String) : (d.constant text).Sound :=
  fun j inst hi => (hd j inst hi).keeps (fun _ _ h => h) (by simp [Draft.constant])

/-- `printString` keeps a draft sound. -/
theorem printString (hd : d.Sound) (text : String) : (d.printString text).Sound := by
  have hx : (d.constant text).IsAvailable (.global d.constants.size) := by
    simp [IsAvailable, IsUsable, Draft.constant]
  exact (hd.constant text).printf "%s\n" hx

/-- `finish` keeps a draft sound. -/
theorem finish (hd : d.Sound) : d.finish.Sound := by
  have hpush := d.instructions_push (.ret (some (.i32 0))) .void none
  exact hd.append hpush (Nat.le_refl _) ⟨rfl, rfl, List.forall_mem_singleton.mpr trivial, rfl⟩

end Sound

namespace Built

variable {policy : ReadPolicy} {d : Draft}

theorem valid (h : d.Built policy) : d.Valid := h.grows.valid valid_empty

/-- A built draft is sound. -/
theorem sound (h : d.Built policy) : d.Sound := by
  induction h with
  | empty => intro j inst hi; simp at hi
  | declare name _ ih => exact ih.declare name
  | store hd hv hx ih => exact ih.store hd.valid hv hx
  | load hd hv _ ih => exact ih.load hd.valid hv
  | widen _ hx hty ih => exact ih.push rfl (List.forall_mem_singleton.mpr hx) hty
  | operate op _ hx hy hxty hyty ih => exact ih.operate op hx hy hxty hyty
  | printf format _ hx ih => exact ih.printf format hx
  | printString text _ ih => exact ih.printString text

/-- There is a call iff there was one or the new instruction is one. -/
theorem hasCall_of_push {d d' : Draft} {inst : Instruction}
    (h : d'.instructions = d.instructions.push inst) :
    d'.body.hasCall = (d.body.hasCall || inst.kind.isCall) := by
  simp [Body.hasCall, h]

/-- An instruction that is no call changes neither whether there is a call nor whether `printf` is
    declared. -/
theorem declaresPrintf_of_push {d d' : Draft} (hd : d.declaresPrintf = d.body.hasCall)
    {inst : Instruction} (hpush : d'.instructions = d.instructions.push inst)
    (hk : inst.kind.isCall = false) (hprintf : d'.declaresPrintf = d.declaresPrintf) :
    d'.declaresPrintf = d'.body.hasCall := by
  rw [hasCall_of_push hpush, hk, Bool.or_false, hprintf, hd]

/-- In a built draft, `printf` is declared iff there is a call. -/
theorem declaresPrintf (h : d.Built policy) : d.declaresPrintf = d.body.hasCall := by
  -- By induction on how the draft was built: only prints add a call, and they declare `printf`.
  induction h with
  | empty => simp [Body.hasCall]
  | @declare d name _ ih =>
    cases hv : d.lookup? name with
    | some v => rwa [declare_of_lookup? hv]
    | none =>
      refine declaresPrintf_of_push ih (instructions_declare_of_new hv) rfl ?_
      rw [declare_of_new hv]
      rfl
  | store _ _ _ ih => exact declaresPrintf_of_push ih (instructions_store _ _ _) rfl rfl
  | load _ _ _ ih | widen _ _ _ ih =>
    exact declaresPrintf_of_push ih (instructions_push _ _ _ _) rfl (declaresPrintf_push _ _ _ _)
  | operate op _ _ _ _ _ ih =>
    refine declaresPrintf_of_push ih (instructions_push _ _ _ _) ?_ (declaresPrintf_push _ _ _ _)
    cases op <;> rfl
  | printf format _ _ _ =>
    rw [hasCall_of_push (instructions_printf _ _ _)]
    exact (Bool.or_true _).symm
  | printString text _ _ =>
    rw [Draft.printString, hasCall_of_push (instructions_printf _ _ _)]
    exact (Bool.or_true _).symm

end Built

/-! ### Names that were handed out -/

/-- `push` takes the name that it gives. -/
theorem taken_push_eq {d : Draft} (h : d.names.taken = d.body.localNames.reverse) (kind : Kind)
    (ty : Ty) (hint : Option String) :
    (d.push kind ty hint).names.taken = (d.push kind ty hint).body.localNames.reverse := by
  have hlocal : (d.push kind ty hint).body.localNames =
      d.body.localNames ++ (d.nextName hint).toList :=
    congrArg ("entry" :: ·) (resultNames_push d kind ty hint)
  rw [taken_push, hlocal, List.reverse_append, h]
  cases hint <;> rfl

/-- `push` takes no name twice. -/
theorem nodup_taken_push {d : Draft} (h : d.names.taken.Nodup) (kind : Kind) (ty : Ty)
    (hint : Option String) :
    (d.push kind ty hint).names.taken.Nodup := by
  rw [taken_push]
  cases hint with
  | none => exact h
  | some hint => exact List.nodup_cons.mpr ⟨d.names.fresh_notMem hint, h⟩

/-- The names that were taken are those of the block and of the results, and no two are the same. -/
theorem Grows.taken_eq {d : Draft} (h : Grows {} d) :
    d.names.taken = d.body.localNames.reverse ∧ d.names.taken.Nodup := by
  induction h with
  | refl => decide
  | push kind ty hint _ _ ih =>
    exact ⟨taken_push_eq ih.1 kind ty hint, nodup_taken_push ih.2 kind ty hint⟩
  | @declare d name _ ih =>
    cases hv : d.lookup? name with
    | some v => rwa [declare_of_lookup? hv]
    | none =>
      rw [declare_of_new hv]
      exact ⟨taken_push_eq ih.1 (.alloca .double) .ptr (some name),
        nodup_taken_push ih.2 (.alloca .double) .ptr (some name)⟩
  | @store d name value _ ih =>
    -- A store marks its variable besides, which is not about names.
    let kind := Kind.store value (.inst (d.slot name))
    exact ⟨taken_push_eq ih.1 kind .void none, nodup_taken_push ih.2 kind .void none⟩
  | constant text _ ih => exact ih
  | printf _ ih => exact ih

/-! ### Regular drafts -/

/-- What holds of the drafts that calls lead to, and also when they are finished. -/
structure Regular (d : Draft) : Prop where
  sound : d.Sound
  names : d.UniqueNames
  taken : d.names.taken = d.body.localNames.reverse
  declaresPrintf : d.declaresPrintf = d.body.hasCall

/-- A built draft is regular. -/
theorem Built.regular {policy : ReadPolicy} {d : Draft} (h : d.Built policy) : d.Regular :=
  ⟨h.sound, h.grows.uniqueNames uniqueNames_empty, h.grows.taken_eq.1, h.declaresPrintf⟩

/-- A regular draft stays so when it is finished. -/
theorem Regular.finish {d : Draft} (h : d.Regular) : d.finish.Regular :=
  ⟨h.sound.finish, h.names.push _ _ _, taken_push_eq h.taken _ _ _,
    Built.declaresPrintf_of_push h.declaresPrintf (instructions_push _ _ _ _) rfl rfl⟩

/-- A call in a regular draft is one of `printf`. -/
theorem Regular.prototype? {d : Draft} (h : d.Regular) {inst : Instruction}
    (hinst : inst ∈ d.instructions) (hcall : inst.kind.isCall = true) (name : String) :
    (d.module name).prototype? 1 = some printfPrototype := by
  have hprintf : d.declaresPrintf = true := by
    rw [h.declaresPrintf, Body.hasCall, Array.any_eq_true']
    exact ⟨inst, hinst, hcall⟩
  rw [Module.prototype?, Draft.module, hprintf]
  rfl

end Draft

/-! ### Well-formed modules -/

/-- What holds of a program under construction, where `main` has the body `main`. -/
structure Module.WellFormed (m : Module) (main : Body) : Prop where
  functions : m.functions = #[⟨mainPrototype, some main⟩] ++
    if main.hasCall then #[⟨printfPrototype, none⟩] else #[]
  declarations : m.declarationCount = if main.hasCall then 1 else 0
  globals : ∀ (k : Nat) (g : Global), m.globals[k]? = some g → g.number = k
  /-- There is one block, with all instructions in their order. -/
  blocks : main.blocks = #[{ label := "entry", instructions := Array.range main.instructions.size }]
  noReturn : ∀ inst ∈ main.instructions, inst.kind.isTerminator = false
  /-- An instruction uses results that come earlier and have a name. -/
  operands : ∀ (j i : Nat) (inst : Instruction), main.instructions[j]? = some inst →
    .inst i ∈ inst.kind.operands →
      i < j ∧ ∃ used name, main.instructions[i]? = some used ∧ used.name = some name
  fits : ∀ inst ∈ main.instructions, main.Fits m.globals.size inst.kind
  names : main.localNames.Nodup

/-- The program of a built draft is well-formed. -/
theorem Draft.Built.wellFormed {policy : ReadPolicy} {d : Draft} (h : d.Built policy)
    (name : String) :
    (d.module name).WellFormed d.body := by
  have hfunctions : (d.module name).functions = #[⟨mainPrototype, some d.body⟩] ++
      if d.body.hasCall then #[⟨printfPrototype, none⟩] else #[] := by
    rw [← h.declaresPrintf]
    rfl
  -- The parts come from how the draft was built: `printf` with the first call, no terminator, and
  -- operands that were there before.
  refine ⟨hfunctions, ?_, ?_, rfl, ?_, ?_, ?_, ?_⟩
  · rw [Module.declarationCount, hfunctions]
    cases d.body.hasCall <;> rfl
  · intro k g hg
    rw [Draft.module, Array.getElem?_mapIdx, Option.map_eq_some_iff] at hg
    obtain ⟨bytes, -, rfl⟩ := hg
    rfl
  · intro inst hinst
    obtain ⟨i, hi⟩ := Array.getElem?_of_mem hinst
    exact h.valid.noTerminator i inst hi
  · intro j i inst hj hi
    exact (h.sound j inst hj).usable _ hi
  · intro inst hinst
    obtain ⟨i, hi⟩ := Array.getElem?_of_mem hinst
    have hsize : (d.module name).globals.size = d.constants.size := Array.size_mapIdx
    rw [hsize]
    exact (h.sound i inst hi).fits
  · obtain ⟨htaken, hnodup⟩ := h.grows.taken_eq
    exact List.nodup_reverse.mp (htaken ▸ hnodup)

/-- The module of a compilation is that of its draft. -/
theorem Compilation.Follows.module_eq {c : Compilation} {options : Options} {d : Draft}
    (hc : c.Follows options d) : c.module = d.module options.moduleName := by
  rw [Compilation.module, Compilation.functions, hc.main, hc.options, hc.constants,
    hc.declaresPrintf]
  rfl

end Straightline
