import Straightline.Proofs.Emission.Effects
import Straightline.Proofs.Execution.Typing

/-!
# What is stored

The slots of variables are for doubles. A write widens a truth value and leaves any other operand as
it is, so what a print hands out gets into a slot as the whole number that it is.

* `Body.storeTypes` are the types of what is stored, and `Command.storeTypes_draft` says what a
  command adds to them.
* `Session.WritesCount` says that a write is given a whole number, and
  `Session.Mirrors.storeTypes_giveAll` that nothing else makes a store that is not of a double.
* `slots_hold_doubles`: a program stores doubles only if no write is given a whole number, and its
  slots and loads are doubles at run time then.
-/

namespace Straightline

open Draft

/-! ### The types of stores -/

/-- What an instruction stores. -/
def Kind.stored? : Kind → Option Operand
  | store value _ => some value
  | _ => none

namespace Body

/-- The types of what is stored, in the order of the stores. -/
def storeTypes (b : Body) : List Ty :=
  b.instructions.toList.filterMap fun inst => inst.kind.stored?.map b.typeOf

/-- A type is among `storeTypes` iff a store stores it. -/
theorem mem_storeTypes {b : Body} {ty : Ty} : ty ∈ b.storeTypes ↔
    ∃ inst ∈ b.instructions, ∃ value ptr, inst.kind = .store value ptr ∧ b.typeOf value = ty := by
  have hstored : ∀ inst : Instruction, inst.kind.stored?.map b.typeOf = some ty ↔
      ∃ value ptr, inst.kind = .store value ptr ∧ b.typeOf value = ty := by
    intro inst
    cases inst.kind <;> simp [Kind.stored?]
  simp [storeTypes, hstored]

/-- `StoresDoubles` says that all `storeTypes` are `double`. -/
theorem storesDoubles_iff {b : Body} : b.StoresDoubles ↔ ∀ ty ∈ b.storeTypes, ty = .double := by
  constructor
  · intro h ty hty
    obtain ⟨inst, hinst, value, ptr, hkind, rfl⟩ := mem_storeTypes.mp hty
    exact h inst hinst value ptr hkind
  · intro h inst hinst value ptr hkind
    exact h _ (mem_storeTypes.mpr ⟨inst, hinst, value, ptr, hkind, rfl⟩)

/-- `b.IsCount x`: `x` is a whole number, that is, a constant or the result of a print. -/
def IsCount (b : Body) : Operand → Prop
  | .i32 _ => True
  | .inst i => ∃ inst, b.instructions[i]? = some inst ∧ inst.kind.isCall = true
  | _ => False

end Body

namespace Draft

variable {d d' : Draft}

/-- In a sound draft, the operands of type `i32` are the whole numbers. -/
theorem Sound.typeOf_eq_i32_iff (h : d.Sound) {x : Operand} :
    d.body.typeOf x = .i32 ↔ d.body.IsCount x := by
  cases x with
  | double | global => simp [Body.IsCount]
  | i32 n => simp [Body.IsCount]
  | inst i =>
    rw [typeOf_inst, Body.IsCount, instructions_body]
    cases hi : d.instructions[i]? with
    | none => simp
    | some inst =>
      -- Of all kinds only a call has this type, as every load is one of a double.
      obtain ⟨hty, hload⟩ := h.hasTypes inst (Array.mem_of_getElem? hi)
      simp only [Option.map_some, Option.getD_some, Option.some.injEq, exists_eq_left', hty]
      cases hkind : inst.kind with
      | load ty ptr => simp [Kind.resultTy, Kind.isCall, hload ty ptr hkind]
      | _ => simp [Kind.resultTy, Kind.isCall, printfPrototype]

/-- An instruction adds the type of what it stores, and the types of earlier stores stay. -/
theorem storeTypes_of_push {inst : Instruction} (hpush : d'.instructions = d.instructions.push inst)
    (h : .void ∉ d.body.storeTypes)
    (hinst : ∀ x, inst.kind.stored? = some x → d.body.typeOf x ≠ .void) :
    d'.body.storeTypes = d.body.storeTypes ++ (inst.kind.stored?.map d.body.typeOf).toList := by
  -- What has a type keeps it, and nothing without one is stored.
  have hkeeps := keeps_of_push hpush
  have htypes : ∀ {x : Operand}, d.body.typeOf x ≠ .void →
      d'.body.typeOf x = d.body.typeOf x := hkeeps.typeOf
  have hnew : inst.kind.stored?.map d'.body.typeOf = inst.kind.stored?.map d.body.typeOf :=
    Option.map_congr fun x hx => htypes (hinst x hx)
  unfold Body.storeTypes at h ⊢
  rw [instructions_body, hpush, Array.toList_push, List.filterMap_append]
  refine congr (congrArg _ (List.filterMap_congr fun a ha => Option.map_congr fun x hx =>
    htypes fun hvoid => ?_)) ?_
  · exact h (List.mem_filterMap.mpr ⟨a, ha, by rw [hx, Option.map_some, hvoid]⟩)
  · rw [List.filterMap_cons, List.filterMap_nil, hnew]
    cases inst.kind.stored?.map d.body.typeOf <;> rfl

/-- An instruction that stores nothing adds no type. -/
theorem storeTypes_push (h : .void ∉ d.body.storeTypes) {kind : Kind} (hkind : kind.stored? = none)
    (ty : Ty) (hint : Option String) :
    (d.push kind ty hint).body.storeTypes = d.body.storeTypes := by
  have hpush := storeTypes_of_push (d.instructions_push kind ty hint) h (by simp [hkind])
  simpa [hkind] using hpush

/-- `declare` stores nothing. -/
theorem storeTypes_declare (h : .void ∉ d.body.storeTypes) (name : String) :
    (d.declare name).body.storeTypes = d.body.storeTypes := by
  cases hv : d.lookup? name with
  | some v => rw [declare_of_lookup? hv]
  | none =>
    have hpush := storeTypes_of_push (instructions_declare_of_new hv) h (by simp [Kind.stored?])
    simpa [Kind.stored?] using hpush

/-- `asDouble` stores nothing. -/
theorem storeTypes_asDouble (h : .void ∉ d.body.storeTypes) (x : Operand) :
    (d.asDouble x).2.body.storeTypes = d.body.storeTypes := by
  unfold asDouble
  split
  · exact storeTypes_push h rfl _ _
  · rfl

/-- `store` adds the type of its value. -/
theorem storeTypes_store (h : .void ∉ d.body.storeTypes) (name : String) {x : Operand}
    (hx : d.body.typeOf x ≠ .void) :
    (d.store name x).body.storeTypes = d.body.storeTypes ++ [d.body.typeOf x] := by
  have hpush :=
    storeTypes_of_push (d.instructions_store name x) h (by simpa [Kind.stored?] using hx)
  simpa [Kind.stored?] using hpush

/-- `printf` stores nothing. -/
theorem storeTypes_printf (h : .void ∉ d.body.storeTypes) (format : String) (x : Operand) :
    (d.printf format x).body.storeTypes = d.body.storeTypes := by
  have hpush := storeTypes_of_push (d.instructions_printf format x) h (by simp [Kind.stored?])
  simpa [Kind.stored?] using hpush

/-- `operate` stores nothing. -/
theorem storeTypes_operate (h : .void ∉ d.body.storeTypes) (op : Option Operator) (x y : Operand) :
    (d.operate op x y).1.body.storeTypes = d.body.storeTypes := by
  cases op with
  | none => rfl
  | some op =>
    have hx := storeTypes_asDouble h x
    have hy := (storeTypes_asDouble (hx ▸ h) y).trans hx
    have hkind : (op.kind (d.asDouble x).1 ((d.asDouble x).2.asDouble y).1).stored? = none := by
      cases op <;> rfl
    unfold operate
    dsimp only
    split
    · rw [apply_eq]
      exact (storeTypes_push (hy ▸ h) hkind _ _).trans hy
    · exact hy

/-- `read` stores a double, or nothing. -/
theorem storeTypes_read (h : .void ∉ d.body.storeTypes) (policy : ReadPolicy) (name : String) :
    ∃ new, (d.read policy name).2.body.storeTypes = d.body.storeTypes ++ new ∧
      ∀ ty ∈ new, ty = .double := by
  have hdeclare := storeTypes_declare h name
  -- Only zero is stored before a load, and only under one policy.
  have hprepare : ∃ new, ((d.declare name).prepare policy name).body.storeTypes =
      d.body.storeTypes ++ new ∧
      ∀ ty ∈ new, ty = .double := by
    unfold prepare
    split
    · refine ⟨[.double], ?_, by simp⟩
      rw [storeTypes_store (hdeclare ▸ h) name (by simp), hdeclare]
      rfl
    · exact ⟨[], by rw [hdeclare, List.append_nil], by simp⟩
  obtain ⟨new, hnew, hdoubles⟩ := hprepare
  have hvoid : .void ∉ ((d.declare name).prepare policy name).body.storeTypes := by
    rw [hnew, List.mem_append]
    rintro (hmem | hmem)
    · exact h hmem
    · exact absurd (hdoubles _ hmem) (by decide)
  exact ⟨new, (storeTypes_push hvoid rfl _ _).trans hnew, hdoubles⟩

end Draft

/-- A command adds stores of doubles, unless it writes a whole number. -/
theorem Command.storeTypes_draft {d : Draft} (h : .void ∉ d.body.storeTypes) (policy : ReadPolicy)
    {made : Command Operand} {meant : Command Datum}
    (hmatch : made.Matches (fun x u => d.body.typeOf x = u.ty) meant) :
    ∃ new, (made.draft policy d).1.body.storeTypes = d.body.storeTypes ++ new ∧
      (∀ ty ∈ new, ty = .double ∨ ty = .i32) ∧
      (.i32 ∈ new ↔ ∃ name x, made = .call (.write name x) ∧ d.body.typeOf x = .i32) := by
  -- Most commands store nothing.
  have hnone : (made.draft policy d).1.body.storeTypes = d.body.storeTypes →
      (∀ name x, made ≠ .call (.write name x)) → ∃ new,
        (made.draft policy d).1.body.storeTypes = d.body.storeTypes ++ new ∧
        (∀ ty ∈ new, ty = .double ∨ ty = .i32) ∧
        (.i32 ∈ new ↔ ∃ name x, made = .call (.write name x) ∧ d.body.typeOf x = .i32) :=
    fun heq hwrite => ⟨[], by rw [heq, List.append_nil], by simp, by simp [hwrite]⟩
  cases hmatch with
  | call hmatch =>
    cases hmatch with
    | constant value => exact hnone rfl (by simp)
    | read name =>
      rcases draft_read_cases policy d name with ⟨-, heq⟩ | ⟨-, -, heq⟩
      · obtain ⟨new, hnew, hdoubles⟩ := storeTypes_read h policy name
        rw [heq]
        refine ⟨new, hnew, fun ty hty => .inl (hdoubles ty hty), ?_⟩
        have hcount : Ty.i32 ∉ new := fun hmem => absurd (hdoubles _ hmem) (by decide)
        simp [hcount]
      · refine hnone ?_ (by simp)
        rw [heq]
        exact storeTypes_declare h name
    | @write name x u hx =>
      have hdeclare := storeTypes_declare h name
      have hx' : (d.declare name).body.typeOf x = u.ty := by
        rw [(Grows.declare name .refl).typeOf (hx ▸ u.ty_ne_void), hx]
      have hwide := typeOf_asDouble hx'
      have hdouble := storeTypes_asDouble (hdeclare ▸ h) x
      have hstore := storeTypes_store (hdouble.trans hdeclare ▸ h) name (hwide ▸ u.wideTy_ne_void)
      rw [hdouble, hdeclare, hwide] at hstore
      refine ⟨[u.wideTy], hstore, ?_, ?_⟩
      · cases u <;> simp [Datum.wideTy]
      · have htypes : Ty.i32 = u.wideTy ↔ u.ty = .i32 := by
          cases u <;> simp [Datum.wideTy, Datum.ty]
        simp [hx, htypes]
    | @binaryOp symbol x y u v hx hy => exact hnone (storeTypes_operate h _ x y) (by simp)
    | @apply op x y u v hx hy => exact hnone (storeTypes_operate h _ x y) (by simp)
    | @printNumber x u hx =>
      have hdouble := storeTypes_asDouble h x
      exact hnone ((storeTypes_printf (hdouble ▸ h) _ _).trans hdouble) (by simp)
    | printString text =>
      have hconstant : .void ∉ (d.constant text).body.storeTypes := h
      exact hnone (storeTypes_printf hconstant _ _) (by simp)
  | resolve name => exact hnone (storeTypes_declare h name) (by simp)
  | printFormatted format hx => exact hnone (storeTypes_printf h _ _) (by simp)

/-! ### Writes of whole numbers -/

/-- `traverse` gives a write only for a write. -/
theorem Command.traverse_eq_write_iff {α β : Type} {f : α → Option β} {command : Command α}
    {name : String} {x : β} : command.traverse f = some (.call (.write name x)) ↔
      ∃ a, command = .call (.write name a) ∧ f a = some x := by
  cases command with
  | call call => cases call <;> simp [traverse, Call.traverse, Option.bind_eq_some_iff, and_comm]
  | resolve | printFormatted => simp [traverse, Option.bind_eq_some_iff]

namespace Session

/-- `s.WritesCount command`: the command writes a whole number, that is, an integer constant or what
    a print handed out. -/
def WritesCount (s : Session) (command : Command Argument) : Prop :=
  ∃ name value x, command = .call (.write name value) ∧ value.operand? s.handles = some x ∧
    s.compilation.main.IsCount x

/-- `s.WritesSomeCount commands`: some command writes a whole number when all are carried out in a
    row. -/
def WritesSomeCount (s : Session) : List (Command Argument) → Prop
  | [] => False
  | command :: commands =>
    s.WritesCount command ∨ ∃ s', s.give command = some s' ∧ s'.WritesSomeCount commands

variable {options : Options} {s s' : Session} {e : Ledger} {d : Draft}

/-- `give` adds a store of a whole number iff `WritesCount`. -/
theorem Mirrors.storeTypes_give (h : Mirrors options s e d)
    (hreach : Compilation.Reachable options s.compilation s.handles)
    (hvoid : .void ∉ s.compilation.main.storeTypes) {command : Command Argument}
    (hs : s.give command = some s') :
    ∃ new, s'.compilation.main.storeTypes = s.compilation.main.storeTypes ++ new ∧
      (∀ ty ∈ new, ty = .double ∨ ty = .i32) ∧ (.i32 ∈ new ↔ s.WritesCount command) := by
  obtain ⟨made, hmade, rfl⟩ := exists_of_give hs
  obtain ⟨meant, -, hmatch⟩ := Command.exists_traverse
    (Argument.exists_datum h.knows.types (fun _ => rfl) fun _ => rfl) hmade
  rw [h.follows.main] at hvoid ⊢
  obtain ⟨new, hnew, htypes, hcount⟩ := Command.storeTypes_draft hvoid options.reads hmatch
  have hfollows := (made.emits_draft s.compilation h.follows).1
  refine ⟨new, (congrArg Body.storeTypes hfollows.main).trans hnew, htypes, hcount.trans ?_⟩
  -- An operand with the type of a whole number is one.
  obtain ⟨d', hd', hbuilt, -⟩ := hreach.exists_built
  have hiff : ∀ x, d.body.typeOf x = .i32 ↔ s.compilation.main.IsCount x := by
    intro x
    rw [← h.follows.main, hd'.main]
    exact hbuilt.sound.typeOf_eq_i32_iff
  constructor
  · rintro ⟨name, x, rfl, hx⟩
    obtain ⟨a, rfl, ha⟩ := Command.traverse_eq_write_iff.mp hmade
    exact ⟨name, a, x, rfl, ha, (hiff x).mp hx⟩
  · rintro ⟨name, a, x, rfl, ha, hx⟩
    have hwrite := hmade.symm.trans (Command.traverse_eq_write_iff.mpr ⟨a, rfl, ha⟩)
    exact ⟨name, x, Option.some.inj hwrite, (hiff x).mpr hx⟩

/-- `giveAll` stores doubles and whole numbers, and the latter iff `WritesSomeCount`. -/
theorem Mirrors.storeTypes_giveAll {commands : List (Command Argument)} (h : Mirrors options s e d)
    (hreach : Compilation.Reachable options s.compilation s.handles)
    (htypes : ∀ ty ∈ s.compilation.main.storeTypes, ty = .double ∨ ty = .i32)
    (hs : s.giveAll commands = some s') :
    (∀ ty ∈ s'.compilation.main.storeTypes, ty = .double ∨ ty = .i32) ∧
      (.i32 ∈ s'.compilation.main.storeTypes ↔
        .i32 ∈ s.compilation.main.storeTypes ∨ s.WritesSomeCount commands) := by
  induction commands generalizing s e d with
  | nil =>
    obtain rfl := Option.some.inj hs
    exact ⟨htypes, by simp [WritesSomeCount]⟩
  | cons command commands ih =>
    rw [giveAll_cons] at hs
    obtain ⟨s₁, hs₁, hs'⟩ := Option.bind_eq_some_iff.mp hs
    obtain ⟨e₁, d₁, -, h₁⟩ := h.give hs₁
    have hvoid : .void ∉ s.compilation.main.storeTypes := fun hmem => by
      have := htypes _ hmem
      simp at this
    -- One command adds its own stores, and the others start from there.
    obtain ⟨new, hnew, hnewTypes, hcount⟩ := h.storeTypes_give hreach hvoid hs₁
    have htypes₁ : ∀ ty ∈ s₁.compilation.main.storeTypes, ty = .double ∨ ty = .i32 := by
      rw [hnew]
      exact List.forall_mem_append.mpr ⟨htypes, hnewTypes⟩
    obtain ⟨htypes', hiff⟩ := ih h₁ (reachable_give hreach hs₁) htypes₁ hs'
    refine ⟨htypes', hiff.trans ?_⟩
    rw [hnew, List.mem_append, hcount, WritesSomeCount, or_assoc]
    simp [hs₁]

end Session

/-! ### Slots -/

/-- `finish` gives `main` the body of `d.finish`. -/
theorem Compilation.Follows.exists_finish {c : Compilation} {options : Options} {d : Draft}
    (hc : c.Follows options d) : ∃ c', Emit.finish c = (.ok (), c') ∧ c'.main = d.finish.body := by
  obtain ⟨c', hfinish, hmodule⟩ := hc.finish
  have hmain : c'.module.functions[0]? = some ⟨mainPrototype, some c'.main⟩ := by
    unfold Compilation.module Compilation.functions
    cases c'.declaresPrintf <;> rfl
  rw [hmodule, main_module] at hmain
  exact ⟨c', hfinish, by simpa using hmain.symm⟩

/-- What gets into slots. A finished program stores doubles and whole numbers. All its stores are of
    doubles iff no write is given a whole number, which is an integer constant or what a print
    handed out. Then, in every state that its run passes through, the slots hold doubles, every
    operand is at run time what it is in the code, and what was loaded for a read is a double. -/
theorem slots_hold_doubles {options : Options} {commands : List (Command Argument)} {s : Session}
    (h : Session.giveAll { compilation := { options } } commands = some s) :
    ∃ c, Emit.finish s.compilation = (.ok (), c) ∧
      (∀ ty ∈ c.main.storeTypes, ty = .double ∨ ty = .i32) ∧
      (c.main.StoresDoubles ↔ ¬ Session.WritesSomeCount { compilation := { options } } commands) ∧
      (¬ Session.WritesSomeCount { compilation := { options } } commands →
        ∀ st : Machine, Machine.Passes c.module c.main st →
          (∀ (slot : Nat) (v : Value), st.memory[slot]? = some v → v.ty = .double) ∧
          (∀ (x : Operand) (v : Value), st.eval x = .ok v → v.ty = c.main.typeOf x) ∧
          ∀ (i : Nat) (inst : Instruction) (ty : Ty) (ptr : Operand) (v : Value),
            c.main.instructions[i]? = some inst → inst.kind = .load ty ptr →
              st.registers[i]? = some v →
              v.ty = .double) := by
  have hempty : ({ options } : Compilation).main.storeTypes = [] := rfl
  obtain ⟨htypes, hcount⟩ :=
    (Session.mirrors_empty options).storeTypes_giveAll .new (by simp [hempty]) h
  obtain ⟨d, hd, hbuilt, -⟩ := (Session.reachable_giveAll .new h).exists_built
  obtain ⟨c, hc, hmain⟩ := hd.exists_finish
  -- The return at the end stores nothing.
  have hvoid : .void ∉ d.body.storeTypes := fun hmem => by
    have := htypes _ (hd.main ▸ hmem)
    simp at this
  have hfinish : c.main.storeTypes = s.compilation.main.storeTypes := by
    rw [hmain, hd.main]
    exact storeTypes_push hvoid rfl _ _
  have hstores : c.main.StoresDoubles ↔
      ¬ Session.WritesSomeCount { compilation := { options } } commands := by
    rw [hempty, List.mem_nil_iff, false_or] at hcount
    rw [Body.storesDoubles_iff, hfinish, ← hcount]
    exact ⟨fun hdoubles hmem => absurd (hdoubles _ hmem) (by decide),
      fun hmem ty hty => (htypes ty hty).resolve_right fun heq => hmem (heq ▸ hty)⟩
  have hsound : c.main.HasTypes := hmain ▸ hbuilt.sound.finish.hasTypes
  refine ⟨c, hc, hfinish ▸ htypes, hstores, fun hnone st hst => ?_⟩
  have htyped := hst.typed hsound (hstores.mpr hnone)
  refine ⟨htyped.memory, fun _ _ => htyped.eval, fun i inst ty ptr v hi hkind hv => ?_⟩
  obtain ⟨hty, hload⟩ := hsound inst (Array.mem_of_getElem? hi)
  have htype : c.main.typeOf (.inst i) = .double := by
    rw [Body.typeOf, hi]
    exact hty.trans (by rw [hkind, Kind.resultTy, hload ty ptr hkind])
  exact (htyped.registers i v hv).trans htype

/-- The result of a comparison is written, and prints are in between. -/
theorem slots_hold_doubles_sample :
    let start : Session := { compilation := { options := {} } }
    let commands : List (Command Argument) :=
      [.call (.write "x" (.constant .zero)), .call (.printString "a"),
      .call (.read "x"), .call (.binaryOp (.result 1) (.constant .zero) ">"),
      .call (.write "y" (.result 2)), .printFormatted "%f\n" (.result 1), .call (.read "y")]
    ∃ s c, start.giveAll commands = some s ∧ Emit.finish s.compilation = (.ok (), c) ∧
      c.main.storeTypes = [.double, .double] ∧ ¬ start.WritesSomeCount commands ∧
      ∀ st : Machine, Machine.Passes c.module c.main st →
        ∀ (slot : Nat) (v : Value), st.memory[slot]? = some v → v.ty = .double := by
  intro start commands
  have htypes : (start.giveAll commands).map
      (fun s => (Emit.finish s.compilation).2.main.storeTypes) =
      some [.double, .double] := by decide +kernel
  obtain ⟨s, hs, hstores⟩ := Option.map_eq_some_iff.mp htypes
  obtain ⟨c, hc, -, hiff, hrun⟩ := slots_hold_doubles hs
  rw [hc] at hstores
  -- The stores are those of doubles, so nothing wrote a whole number.
  have hnone := hiff.mp (Body.storesDoubles_iff.mpr (by simp [hstores]))
  exact ⟨s, c, hs, hc, hstores, hnone, fun st hst => (hrun hnone st hst).1⟩

/-- What a print hands out is stored as a whole number. The read of the variable hands out a double
    in the code, but the run finds the whole number there. -/
theorem slot_holds_count :
    ∃ s c, Session.giveAll { compilation := { options := {} } } [.call (.printString "a"),
        .call (.write "x" (.result 0)), .call (.read "x"),
          .call (.printNumber (.result 1))] = some s ∧
      Emit.finish s.compilation = (.ok (), c) ∧ c.main.storeTypes = [.i32] ∧
      ¬ c.main.StoresDoubles ∧
      c.module.run "main" = .error (.typeMismatch .double .i32) := by
  refine ⟨_, _, rfl, rfl, by decide +kernel, ?_, by decide +kernel⟩
  rw [Body.storesDoubles_iff]
  decide +kernel

end Straightline
