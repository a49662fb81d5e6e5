import Mathlib.Data.List.Basic
import Straightline.Execution.Run
import Straightline.Proofs.Emission.Draft
import Straightline.Proofs.Results

/-!
# Running drafts

What the instructions of a draft do when they are run as the beginning of a finished program.

* `Draft.exec` runs a draft, and `Draft.Valid.run_finish` says that this is how its program runs.
* `Draft.Runs` describes the state after a draft: what the variables hold and what was printed.
  There is one lemma for each step that a draft can grow by, and one for a load that fails.
* `Draft.Reaches` is the same where all variables hold doubles, and one that holds nothing counts as
  zero.
* `Draft.Carries` says which number an operand stands for. Operands keep their values when a draft
  grows.
* `Draft.Reaches.read_eq_error` is the only way to fail: a load from a slot that nothing was stored
  to.
* `Draft.Reaches.mem_slots` and `nodup_slots` describe the slots at the end.
-/

namespace Straightline

/-! ### Machines -/

namespace Machine

/-- Run an instruction that does not return. -/
def advance (m : Module) (b : Body) (s : Machine) (i : Nat) (kind : Kind) :
    Except RunError Machine := do
  match ← s.step m b i kind with
  | .next s => return s
  | .returned _ => return s

/-- `setRegister i v` sets this register and no other. -/
theorem getElem?_setRegister (s : Machine) (i j : Nat) (v : Value) :
    (s.setRegister i v).registers[j]? = if i = j then some v else s.registers[j]? := by
  rw [setRegister, Std.TreeMap.getElem?_insert]
  simp only [Nat.compare_eq_eq]

end Machine

namespace Draft

/-- The instructions with their indices. -/
def code (d : Draft) : List (Nat × Instruction) := d.body.contents d.block

/-- The code of a draft is all its instructions, with their indices. -/
theorem code_eq (d : Draft) :
    d.code = (List.range d.instructions.size).filterMap fun i => d.instructions[i]?.map (i, ·) := by
  simp [code, Body.contents, block]

@[simp] theorem code_push (d : Draft) (kind : Kind) (ty : Ty) (hint : Option String) :
    (d.push kind ty hint).code =
      d.code ++ [(d.instructions.size, ⟨kind, ty, d.nextName hint⟩)] := by
  rw [code_eq, code_eq, instructions_push, Array.size_push, List.range_succ, List.filterMap_append]
  refine congr (congrArg _ (List.filterMap_congr fun i hi => ?_)) ?_
  · rw [Array.getElem?_push, if_neg (Nat.ne_of_lt (List.mem_range.mp hi))]
  · simp

/-- Run the instructions of a draft as part of a body of a module. -/
def exec (d : Draft) (m : Module) (b : Body) : Except RunError Machine :=
  d.code.foldlM (fun s p => s.advance m b p.1 p.2.kind) {}

section

variable (m : Module) (b : Body)

/-- Running a draft with one more instruction runs the draft and then the instruction. -/
theorem exec_push (d : Draft) (kind : Kind) (ty : Ty) (hint : Option String) :
    (d.push kind ty hint).exec m b =
      d.exec m b >>= fun s => s.advance m b d.instructions.size kind := by
  rw [exec, code_push, List.foldlM_append]
  refine bind_congr fun s => ?_
  rw [List.foldlM_cons]
  exact bind_pure _

end

/-- The code of a valid draft has no return in it. -/
theorem Valid.isTerminator_code {d : Draft} (h : d.Valid) {p : Nat × Instruction}
    (hp : p ∈ d.code) :
    p.2.kind.isTerminator = false := by
  rw [code_eq, List.mem_filterMap] at hp
  obtain ⟨i, -, hi⟩ := hp
  obtain ⟨inst, hinst, rfl⟩ := Option.map_eq_some_iff.mp hi
  exact h.noTerminator i inst hinst

end Draft

namespace Machine

/-- `Machine.call` counts what it prints, and changes nothing but the output. -/
theorem exists_of_call {s s' : Machine} {m : Module} {callee : Nat} {args : List Operand}
    {v : Value} (h : s.call m callee args = .ok (v, s')) :
    ∃ n text, v = .int n ∧ s' = { s with output := s.output ++ text } := by
  unfold call at h
  split at h
  · cases h
  · split at h
    · obtain ⟨values, -, h⟩ := bind_eq_ok_iff.mp h
      obtain ⟨text, -, h⟩ := bind_eq_ok_iff.mp h
      cases h
      exact ⟨_, text, rfl, rfl⟩
    · cases h

/-- Every instruction but a return goes on to the next, and sets no register but its own. -/
theorem step_next {s : Machine} {m : Module} {b : Body} {i : Nat} {kind : Kind}
    (hk : kind.isTerminator = false) {o : Outcome} (h : s.step m b i kind = .ok o) :
    ∃ s', o = .next s' ∧ ∀ j, j ≠ i → s'.registers[j]? = s.registers[j]? := by
  have hset : ∀ (s : Machine) (v : Value) (j : Nat), j ≠ i →
      (s.setRegister i v).registers[j]? = s.registers[j]? := by
    intro s v j hj
    rw [getElem?_setRegister, if_neg hj.symm]
  -- One case per instruction. Only a store and an `alloca` touch memory, and only a call the
  -- output.
  cases kind with
  | ret value => cases hk
  | alloca ty =>
    obtain rfl := Except.ok.inj h
    exact ⟨_, rfl, hset s _⟩
  | store value ptr =>
    obtain ⟨v, -, h⟩ := bind_eq_ok_iff.mp h
    obtain ⟨slot, -, h⟩ := bind_eq_ok_iff.mp h
    cases h
    exact ⟨_, rfl, fun _ _ => rfl⟩
  | call callee args =>
    obtain ⟨⟨v, s'⟩, hcall, h⟩ := bind_eq_ok_iff.mp h
    obtain ⟨n, text, rfl, rfl⟩ := exists_of_call hcall
    cases h
    exact ⟨_, rfl, hset _ _⟩
  | load ty ptr | binary op lhs rhs | compare condition lhs rhs | widen value =>
    obtain ⟨x, -, h⟩ := bind_eq_ok_iff.mp h
    obtain ⟨y, -, h⟩ := bind_eq_ok_iff.mp h
    cases h
    exact ⟨_, rfl, hset s _⟩

section

variable {s : Machine} (m : Module) (b : Body) (i : Nat)

/-- `widen` sets a register to the number of a truth value. -/
theorem step_widen {x : Operand} {v : Value} {value : Double} (hx : s.eval x = .ok v)
    (hv : v.widen = .ok value) :
    s.step m b i (.widen x) = .ok (.next (s.setRegister i (.double value))) := by
  rw [step, hx]
  show (v.widen >>= _) = _
  rw [hv]
  rfl

/-- `store` writes a value to memory. -/
theorem step_store {x ptr : Operand} {v : Value} {slot : Nat} (hx : s.eval x = .ok v)
    (hptr : s.evalSlot ptr = .ok slot) :
    s.step m b i (.store x ptr) = .ok (.next { s with memory := s.memory.insert slot v }) := by
  rw [step, hx, hptr]
  rfl

/-- `load` reads a value from memory. -/
theorem step_load {ty : Ty} {ptr : Operand} {v : Value} {slot : Nat}
    (hptr : s.evalSlot ptr = .ok slot) (hmemory : s.memory[slot]? = some v) :
    s.step m b i (.load ty ptr) = .ok (.next (s.setRegister i v)) := by
  rw [step, hptr]
  show (s.load b slot >>= _) = _
  rw [load, hmemory]
  rfl

/-- `load` fails if there is none, and names the slot. -/
theorem step_load_eq_error {ty : Ty} {ptr : Operand} {slot : Nat} (hptr : s.evalSlot ptr = .ok slot)
    (hmemory : s.memory[slot]? = none) :
    s.step m b i (.load ty ptr) =
      .error (.uninitializedLoad ((b.instructions[slot]?.bind (·.name)).getD "")) := by
  rw [step, hptr]
  show (s.load b slot >>= _) = _
  rw [load, hmemory]
  rfl

/-- A call of `printf` prints what `Module.printf` makes of its arguments. -/
theorem step_printf {m : Module} {args : List Operand} {vs : List Value}
    (hprintf : m.functions[1]? = some ⟨printfPrototype, none⟩) (hargs : args.mapM s.eval = .ok vs) :
    s.step m b i (.call 1 args) = m.printf vs >>= fun text =>
      .ok (.next ({ s with output := s.output ++ text }.setRegister i
        (.int (Int32.ofNat text.utf8ByteSize)))) := by
  rw [step, call, hprintf]
  show ((args.mapM s.eval >>= fun vs => m.printf vs >>= _) >>= _) = _
  rw [hargs]
  show ((m.printf vs >>= _) >>= _) = _
  cases m.printf vs <;> rfl

end

end Machine

namespace Module

/-- The text of a constant is what its bytes stand for. -/
theorem constantText_eq {m : Module} {i : Nat} {text : String}
    (h : m.globals[i]?.map (·.bytes) = some text.toByteArray) :
    m.constantText (.pointer (.global i)) = .ok text := by
  obtain ⟨g, hg, hbytes⟩ := Option.map_eq_some_iff.mp h
  rw [constantText, hg]
  dsimp only
  rw [Global.contents, hbytes, Text.decodeLossy_toByteArray]

/-- `printf "%f\n"` prints a number with six decimal places. -/
theorem printf_number {m : Module} {i : Nat}
    (h : m.globals[i]?.map (·.bytes) = some "%f\n".toByteArray) (value : Double) :
    m.printf [.pointer (.global i), .double value] = .ok (value.toFixed 6 ++ "\n") := by
  rw [printf, constantText_eq h]
  rfl

/-- `printf "%s\n"` prints a text as it is. -/
theorem printf_text {m : Module} {i j : Nat} {text : String}
    (h : m.globals[i]?.map (·.bytes) = some "%s\n".toByteArray)
    (htext : m.globals[j]?.map (·.bytes) = some text.toByteArray) :
    m.printf [.pointer (.global i), .pointer (.global j)] = .ok (text ++ "\n") := by
  have hrender : ∀ v, m.constantText v = .ok text →
      m.render "%s\n" "%s\n".toList [v] = .ok (text ++ "\n") := by
    intro v hv
    show (m.constantText v >>= _) = _
    rw [hv]
    rfl
  rw [printf, constantText_eq h]
  exact hrender _ (constantText_eq htext)

end Module

namespace Machine

/-- A run of `code ++ rest` runs `code` and then `rest`, if `code` has no return in it. -/
theorem run_append (m : Module) (b : Body) (label : String) (code rest : List (Nat × Instruction))
    (hcode : ∀ p ∈ code, p.2.kind.isTerminator = false) (s : Machine) :
    run m b label (code ++ rest) s =
      code.foldlM (fun s p => s.advance m b p.1 p.2.kind) s >>= run m b label rest := by
  induction code generalizing s with
  | nil => rfl
  | cons p code ih =>
    rw [List.cons_append, run, List.foldlM_cons, advance]
    cases hstep : s.step m b p.1 p.2.kind with
    | error e => rfl
    | ok o =>
      -- Without a return, the run goes on behind the instruction.
      obtain ⟨s', rfl, -⟩ := step_next (hcode p (by simp)) hstep
      exact ih (fun q hq => hcode q (by simp [hq])) s'

end Machine

namespace Draft

/-- `function?` finds `main` as the first function. -/
theorem function?_module (d : Draft) (name : String) :
    (d.module name).function? "main" = some 0 := by
  unfold Module.function? module
  -- The later entry is that of another name.
  have hname : compare "printf" "main" ≠ .eq := by decide
  cases d.declaresPrintf
  · exact Std.TreeMap.getElem?_insert_self
  · exact (Std.TreeMap.getElem?_insert.trans (if_neg hname)).trans Std.TreeMap.getElem?_insert_self

/-- The first function of a program is `main`. -/
theorem main_module (d : Draft) (name : String) :
    (d.module name).functions[0]? = some ⟨mainPrototype, some d.body⟩ := by
  unfold module
  cases d.declaresPrintf <;> rfl

/-- The second is `printf`, if it is declared. -/
theorem printf_module {d : Draft} (h : d.declaresPrintf = true) (name : String) :
    (d.module name).functions[1]? = some ⟨printfPrototype, none⟩ := by
  simp [module, h]

/-- A finished draft is run by running its code with `exec`. The exit code is zero. -/
theorem Valid.run_finish {d : Draft} (h : d.Valid) (name : String) :
    (d.finish.module name).run "main" =
      (d.exec (d.finish.module name) d.finish.body).map fun s =>
        ⟨0, s.output, s.slots d.finish.body⟩ := by
  -- The only block has the code of the draft and the `ret` behind it.
  have hcode : d.finish.body.contents d.finish.block =
      d.code ++ [(d.instructions.size, ⟨.ret (some (.i32 0)), .void, none⟩)] := code_push d _ _ _
  have hrun := Machine.run_append (d.finish.module name) d.finish.body "entry" d.code
    [(d.instructions.size, ⟨.ret (some (.i32 0)), .void, none⟩)]
    (fun p hp => h.isTerminator_code hp) {}
  unfold Module.run
  rw [function?_module, Option.bind_some, main_module]
  show (Machine.run (d.finish.module name) d.finish.body "entry"
    (d.finish.body.contents d.finish.block) {} >>= fun r => _) = _
  rw [hcode, hrun]
  show ((d.exec (d.finish.module name) d.finish.body >>= _) >>= _) = _
  cases d.exec (d.finish.module name) d.finish.body <;> rfl

/-! ### Code that was run before -/

/-- The code of a draft that grows gets longer, and what is added has higher indices. -/
theorem Grows.code {d d' : Draft} (h : Grows d d') :
    ∃ added, d'.code = d.code ++ added ∧ ∀ p ∈ added, d.instructions.size ≤ p.1 := by
  obtain ⟨k, hk⟩ : ∃ k, d'.instructions.size = d.instructions.size + k :=
    Nat.exists_eq_add_of_le (by simpa using h.instructions.length_le)
  refine ⟨((List.range k).map (d.instructions.size + ·)).filterMap fun i =>
    d'.instructions[i]?.map (i, ·), ?_, ?_⟩
  · -- The old indices come first, and what stands there has not changed.
    rw [code_eq, code_eq, hk, List.range_add, List.filterMap_append]
    refine congrArg (· ++ _) (List.filterMap_congr fun i hi => ?_)
    have hi' := Array.getElem?_eq_getElem (List.mem_range.mp hi)
    rw [hi', h.getElem? hi']
  · intro p hp
    obtain ⟨i, hi, hp⟩ := List.mem_filterMap.mp hp
    obtain ⟨j, -, rfl⟩ := List.mem_map.mp hi
    obtain ⟨inst, -, rfl⟩ := Option.map_eq_some_iff.mp hp
    exact Nat.le_add_right _ _

variable {m : Module} {b : Body}

/-- A run that fails goes on to fail when the draft grows. -/
theorem Grows.exec_eq_error {d d' : Draft} (h : Grows d d') {e : RunError}
    (he : d.exec m b = .error e) : d'.exec m b = .error e := by
  obtain ⟨added, hcode, -⟩ := h.code
  rw [exec] at he
  rw [exec, hcode, List.foldlM_append, he]
  rfl

/-- A register that was set keeps its value when the draft grows. -/
theorem Grows.registers {d d' : Draft} (h : Grows d d') (hd' : d'.Valid) {s s' : Machine}
    (hs : d.exec m b = .ok s) (hs' : d'.exec m b = .ok s') {i : Nat}
    (hi : i < d.instructions.size) :
    s'.registers[i]? = s.registers[i]? := by
  obtain ⟨added, hcode, hindex⟩ := h.code
  have hadded : ∀ p ∈ added, p.2.kind.isTerminator = false := fun p hp =>
    hd'.isTerminator_code (by rw [hcode]; exact List.mem_append_right _ hp)
  rw [exec] at hs
  rw [exec, hcode, List.foldlM_append, hs] at hs'
  replace hs' : added.foldlM (fun s p => s.advance m b p.1 p.2.kind) s = .ok s' := hs'
  clear hs hcode
  -- Each instruction that was added sets its own register, behind those of the draft.
  induction added generalizing s with
  | nil =>
    cases hs'
    rfl
  | cons p added ih =>
    rw [List.foldlM_cons] at hs'
    obtain ⟨s₁, hp, hrest⟩ := bind_eq_ok_iff.mp hs'
    obtain ⟨o, hstep, ho⟩ := bind_eq_ok_iff.mp hp
    obtain ⟨s₂, rfl, hregisters⟩ := Machine.step_next (hadded p (by simp)) hstep
    cases ho
    have hne : i ≠ p.1 := Nat.ne_of_lt (Nat.lt_of_lt_of_le hi (hindex p (by simp)))
    rw [ih (fun q hq => hindex q (by simp [hq])) (fun q hq => hadded q (by simp [hq])) hrest,
      hregisters i hne]

/-! ### States -/

/-- `d.Within m b`: `d` is the beginning of the body `b` of the module `m`. -/
structure Within (d : Draft) (m : Module) (b : Body) : Prop where
  instructions : ∀ {i : Nat} {inst : Instruction}, d.instructions[i]? = some inst →
    b.instructions[i]? = some inst
  constants : ∀ {i : Nat} {bytes : ByteArray}, d.constants[i]? = some bytes →
    m.globals[i]?.map (·.bytes) = some bytes
  printf : d.declaresPrintf = true → m.functions[1]? = some ⟨printfPrototype, none⟩

/-- What a draft grew out of is within the same body. -/
theorem Within.of_grows {d d' : Draft} (hd' : d'.Within m b) (h : Grows d d') : d.Within m b where
  instructions hi := hd'.instructions (h.getElem? hi)
  constants := by
    intro i bytes hi
    obtain ⟨added, hadded⟩ := h.constants
    refine hd'.constants ?_
    rw [← Array.getElem?_toList] at hi ⊢
    rw [← hadded, List.getElem?_append_left (List.getElem?_eq_some_iff.mp hi).1, hi]
  printf hd := hd'.printf (h.declaresPrintf hd)

/-- A draft is the beginning of its own program. -/
theorem within_finish (d : Draft) (name : String) :
    d.Within (d.finish.module name) d.finish.body where
  instructions := by
    intro i inst hi
    have hlt := (Array.getElem?_eq_some_iff.mp hi).1
    show (d.push _ _ _).instructions[i]? = _
    rw [instructions_push, Array.getElem?_push, if_neg (Nat.ne_of_lt hlt), hi]
  constants := by
    intro i bytes hi
    show (d.constants.mapIdx Global.mk)[i]?.map _ = _
    rw [Array.getElem?_mapIdx, hi]
    rfl
  printf hd := printf_module (by rw [finish, declaresPrintf_push, hd]) name

/-- `Runs m b d s values output`: running `d` leads to `s`. The slots of the variables hold
    `values`, nothing else is in memory, and `output` was printed. -/
structure Runs (m : Module) (b : Body) (d : Draft) (s : Machine) (values : String → Option Value)
    (output : String) : Prop where
  valid : d.Valid
  exec : d.exec m b = .ok s
  output : s.output = output
  pointer : ∀ v ∈ d.vars, s.registers[v.slot]? = some (.pointer (.slot v.slot))
  memory : ∀ v ∈ d.vars, s.memory[v.slot]? = values v.name
  slots : ∀ (i : Nat) (value : Value), s.memory[i]? = some value → ∃ v ∈ d.vars, v.slot = i
  unknown : ∀ {name : String}, d.lookup? name = none → values name = none

/-- Running no code changes nothing. -/
theorem runs_empty (m : Module) (b : Body) : Runs m b {} {} (fun _ => none) "" where
  valid := valid_empty
  exec := rfl
  output := rfl
  pointer := by simp
  memory := by simp
  slots := by simp
  unknown _ := rfl

namespace Runs

variable {d d' : Draft} {s : Machine} {values : String → Option Value} {output : String}

/-- `exec` of one more instruction that goes on. -/
theorem exec_push (h : Runs m b d s values output) {s' : Machine} {kind : Kind} (ty : Ty)
    (hint : Option String) (hstep : s.step m b d.instructions.size kind = .ok (.next s')) :
    (d.push kind ty hint).exec m b = .ok s' := by
  rw [Draft.exec_push, h.exec]
  show s.advance m b d.instructions.size kind = _
  rw [Machine.advance, hstep]
  rfl

/-- An instruction that fails ends the run. -/
theorem exec_push_eq_error (h : Runs m b d s values output) {kind : Kind} (ty : Ty)
    (hint : Option String) {e : RunError} (hstep : s.step m b d.instructions.size kind = .error e) :
    (d.push kind ty hint).exec m b = .error e := by
  rw [Draft.exec_push, h.exec]
  show s.advance m b d.instructions.size kind = _
  rw [Machine.advance, hstep]
  rfl

/-- An instruction that leaves memory as it is runs on with the same values. -/
theorem push (h : Runs m b d s values output) (kind : Kind) (ty : Ty) (hint : Option String)
    (hk : kind.isTerminator = false) {s' : Machine} {output' : String}
    (hstep : s.step m b d.instructions.size kind = .ok (.next s')) (hmemory : s'.memory = s.memory)
    (houtput : s'.output = output') : Runs m b (d.push kind ty hint) s' values output' where
  valid := h.valid.push hk ty hint
  exec := h.exec_push ty hint hstep
  output := houtput
  pointer := by
    intro w hw
    rw [vars_push] at hw
    obtain ⟨s'', heq, hregisters⟩ := Machine.step_next hk hstep
    cases heq
    -- The slot was reserved before, so its register is not the one that is set.
    rw [hregisters _ (Nat.ne_of_lt (h.valid.slot_lt hw)), h.pointer w hw]
  memory := by
    rw [vars_push, hmemory]
    exact h.memory
  slots := by
    rw [vars_push, hmemory]
    exact h.slots
  unknown hv := h.unknown (by rwa [lookup?_push] at hv)

/-- Nothing is stored to a slot before it is reserved. -/
theorem memory_size (h : Runs m b d s values output) : s.memory[d.instructions.size]? = none := by
  cases hi : s.memory[d.instructions.size]? with
  | none => rfl
  | some value =>
    obtain ⟨v, hv, hslot⟩ := h.slots _ _ hi
    exact absurd hslot (Nat.ne_of_lt (h.valid.slot_lt hv))

/-- `declare` reserves a slot that nothing is stored to. -/
theorem declare (h : Runs m b d s values output) (name : String) :
    ∃ s', Runs m b (d.declare name) s' values output := by
  cases hv : d.lookup? name with
  | some v =>
    rw [declare_of_lookup? hv]
    exact ⟨s, h⟩
  | none =>
    have hpush := h.push (.alloca .double) .ptr (some name) rfl rfl rfl h.output
    have hvalid := h.valid.declare name
    have hunknown : ∀ {other : String}, (d.declare name).lookup? other = none →
        values other = none := by
      intro other hother
      rw [lookup?_declare] at hother
      split at hother
      · cases hother
      · exact h.unknown hother
    rw [declare_of_new hv] at hvalid hunknown ⊢
    -- A variable is an earlier one or the new one.
    refine ⟨_, hvalid, hpush.exec, hpush.output, fun w hw => ?_, fun w hw => ?_,
      fun i x hi => ?_, hunknown⟩
    · rcases List.mem_append.mp hw with hw | hw
      · exact hpush.pointer w (by rwa [vars_push])
      · rw [List.mem_singleton.mp hw, Machine.getElem?_setRegister, if_pos rfl]
    · rcases List.mem_append.mp hw with hw | hw
      · exact h.memory w hw
      · rw [List.mem_singleton.mp hw]
        exact h.memory_size.trans (h.unknown hv).symm
    · obtain ⟨w, hw, hslot⟩ := h.slots i x hi
      exact ⟨w, List.mem_append_left _ hw, hslot⟩

/-- The operand of a variable's slot points to it. -/
theorem evalSlot (h : Runs m b d s values output) {name : String} {v : Variable}
    (hv : d.lookup? name = some v) : s.evalSlot (.inst (d.slot name)) = .ok v.slot := by
  rw [slot_of_lookup? hv, Machine.evalSlot, Machine.eval, h.pointer v (mem_of_lookup? hv)]
  rfl

/-- `store` changes the value of one variable. -/
theorem store (h : Runs m b d s values output) {name : String} {v : Variable}
    (hv : d.lookup? name = some v) {x : Operand} {value : Value} (hx : s.eval x = .ok value) :
    Runs m b (d.store name x) { s with memory := s.memory.insert v.slot value }
      (fun other => if other = name then some value else values other) output := by
  have hvmem := mem_of_lookup? hv
  refine ⟨h.valid.store name x, ?_, h.output, fun w hw => ?_, fun w hw => ?_, fun i y hi => ?_,
    fun {other} hother => ?_⟩
  · exact h.exec_push _ _ (Machine.step_store m b _ hx (h.evalSlot hv))
  · obtain ⟨u, hu, rfl⟩ := List.mem_map.mp hw
    exact h.pointer u hu
  · obtain ⟨u, hu, rfl⟩ := List.mem_map.mp hw
    rw [Std.TreeMap.getElem?_insert]
    -- The slots of variables are different, so only the one of this name is changed.
    by_cases hname : u.name = name
    · have huv : u = v := eq_of_nodup h.valid.names hu hvmem (by rw [hname, name_of_lookup? hv])
      simp [huv, name_of_lookup? hv]
    · have hslot : v.slot ≠ u.slot := fun heq =>
        hname (eq_of_nodup h.valid.slots hvmem hu heq ▸ name_of_lookup? hv)
      simp [hslot, hname, h.memory u hu]
  · have hslots : ∃ u ∈ d.vars, u.slot = i := by
      rw [Std.TreeMap.getElem?_insert] at hi
      split at hi
      · next heq => exact ⟨v, hvmem, Nat.compare_eq_eq.mp heq⟩
      · exact h.slots i y hi
    obtain ⟨u, hu, hslot⟩ := hslots
    exact ⟨u.mark name, List.mem_map_of_mem hu, hslot⟩
  · rw [lookup?_store, Option.map_eq_none_iff] at hother
    have hne : other ≠ name := by
      rintro rfl
      rw [hv] at hother
      cases hother
    rw [if_neg hne, h.unknown hother]

/-- A load from a variable that holds a value gives it. -/
theorem step_load (h : Runs m b d s values output) {name : String} {v : Variable} {value : Value}
    (hv : d.lookup? name = some v) (hvalue : values name = some value) :
    s.step m b d.instructions.size (.load .double (.inst (d.slot name))) =
      .ok (.next (s.setRegister d.instructions.size value)) := by
  have hmemory := h.memory v (mem_of_lookup? hv)
  rw [name_of_lookup? hv, hvalue] at hmemory
  exact Machine.step_load m b _ (h.evalSlot hv) hmemory

/-- A load from a variable that holds none fails and names its slot. -/
theorem load_eq_error (h : Runs m b d s values output) {name : String} {v : Variable}
    (hv : d.lookup? name = some v) (hvalue : values name = none) (hint : Option String) :
    (d.push (.load .double (.inst (d.slot name))) .double hint).exec m b =
      .error (.uninitializedLoad ((b.instructions[v.slot]?.bind (·.name)).getD "")) := by
  have hmemory := h.memory v (mem_of_lookup? hv)
  rw [name_of_lookup? hv, hvalue] at hmemory
  exact h.exec_push_eq_error _ _ (Machine.step_load_eq_error m b _ (h.evalSlot hv) hmemory)

/-- The call of a print, once its constants are there. -/
theorem step_printf (h : Runs m b d s values output) {format : String} {x : Operand} {v : Value}
    (hd : (d.printf format x).Within m b) (hx : s.eval x = .ok v) :
    Runs m b { d.constant format with declaresPrintf := true } s values output ∧
      s.step m b d.instructions.size (.call 1 [.global d.constants.size, x]) =
        m.printf [.pointer (.global d.constants.size), v] >>= fun text =>
          .ok (.next ({ s with output := s.output ++ text }.setRegister d.instructions.size
            (.int (Int32.ofNat text.utf8ByteSize)))) := by
  refine ⟨{ h with valid := (Grows.printf (.constant format .refl)).valid h.valid }, ?_⟩
  have hargs : [.global d.constants.size, x].mapM s.eval =
      .ok [.pointer (.global d.constants.size), v] := by
    rw [List.mapM_cons, List.mapM_cons, hx]
    rfl
  exact Machine.step_printf b d.instructions.size (hd.printf (declaresPrintf_push _ _ _ _)) hargs

/-- `printf` prints a value with a format, and its result is how many bytes were written. -/
theorem printf (h : Runs m b d s values output) {format : String} {x : Operand} {v : Value}
    {text : String} (hd : (d.printf format x).Within m b) (hx : s.eval x = .ok v)
    (htext : m.printf [.pointer (.global d.constants.size), v] = .ok text) :
    ∃ s', Runs m b (d.printf format x) s' values (output ++ text) ∧
      s'.eval d.next = .ok (.int (Int32.ofNat text.utf8ByteSize)) := by
  obtain ⟨hconstant, hstep⟩ := h.step_printf hd hx
  rw [htext] at hstep
  refine ⟨_, hconstant.push _ _ _ rfl hstep rfl ?_, ?_⟩
  · show s.output ++ text = _
    rw [h.output]
  · rw [next, Machine.eval, Machine.getElem?_setRegister, if_pos rfl]

/-- A print that fails ends the run. -/
theorem printf_eq_error (h : Runs m b d s values output) {format : String} {x : Operand} {v : Value}
    {e : RunError} (hd : (d.printf format x).Within m b) (hx : s.eval x = .ok v)
    (htext : m.printf [.pointer (.global d.constants.size), v] = .error e) :
    (d.printf format x).exec m b = .error e := by
  obtain ⟨hconstant, hstep⟩ := h.step_printf hd hx
  rw [htext] at hstep
  exact hconstant.exec_push_eq_error _ _ hstep

end Runs

/-- The format of a print is a constant of the module. -/
theorem constants_printf {d : Draft} {format : String} {x : Operand}
    (hd : (d.printf format x).Within m b) :
    m.globals[d.constants.size]?.map (·.bytes) = some format.toByteArray :=
  hd.constants (by rw [Draft.printf, constants_push]; exact Array.getElem?_push_size)

/-- `Reaches m b d s values output`: running `d` leads to `s`. Slots that were stored to hold the
    `values` of their variables, a variable that was not stored to counts as zero, and nothing else
    is in memory. -/
structure Reaches (m : Module) (b : Body) (d : Draft) (s : Machine) (values : String → Double)
    (output : String) : Prop where
  valid : d.Valid
  exec : d.exec m b = .ok s
  output : s.output = output
  pointer : ∀ v ∈ d.vars, s.registers[v.slot]? = some (.pointer (.slot v.slot))
  memory : ∀ v ∈ d.vars,
    s.memory[v.slot]? = if v.written then some (.double (values v.name)) else none
  slots : ∀ (i : Nat) (value : Value), s.memory[i]? = some value → ∃ v ∈ d.vars, v.slot = i
  zero : ∀ {name : String}, d.isWritten name = false → values name = Double.zero

/-- Running no code leaves all variables zero. -/
theorem reaches_empty (m : Module) (b : Body) :
    Reaches m b {} {} (fun _ => Double.zero) "" where
  valid := valid_empty
  exec := rfl
  output := rfl
  pointer := by simp
  memory := by simp
  slots := by simp
  zero _ := rfl

/-- The values of the variables that were stored to, where all of them are doubles. -/
def stored (d : Draft) (values : String → Double) (name : String) : Option Value :=
  if d.isWritten name then some (.double (values name)) else none

/-- `stored` depends on `isWritten` only. -/
theorem stored_congr {d d' : Draft} (h : ∀ name, d'.isWritten name = d.isWritten name)
    (values : String → Double) : d'.stored values = d.stored values := by
  funext name
  rw [stored, stored, h]

/-- `Runs` with the values that were stored is `Reaches`. -/
theorem Runs.reaches {d : Draft} {s : Machine} {values : String → Double} {output : String}
    (h : Runs m b d s (d.stored values) output)
    (hzero : ∀ {name : String}, d.isWritten name = false → values name = Double.zero) :
    Reaches m b d s values output :=
  { h with
    memory := by
      intro v hv
      rw [h.memory v hv, stored, isWritten_of_lookup? (h.valid.lookup?_eq hv)]
    zero := hzero }

namespace Reaches

variable {d d' : Draft} {s : Machine} {values : String → Double} {output : String}

/-- `Reaches` is `Runs` with the values that were stored. -/
theorem runs (h : Reaches m b d s values output) : Runs m b d s (d.stored values) output :=
  { h with
    memory := by
      intro v hv
      rw [h.memory v hv, stored, isWritten_of_lookup? (h.valid.lookup?_eq hv)]
    unknown := by
      intro name hv
      simp [stored, isWritten, hv] }

/-- An instruction that leaves memory as it is leads on with the same values. -/
theorem push (h : Reaches m b d s values output) (kind : Kind) (ty : Ty) (hint : Option String)
    (hk : kind.isTerminator = false) {s' : Machine} {output' : String}
    (hstep : s.step m b d.instructions.size kind = .ok (.next s')) (hmemory : s'.memory = s.memory)
    (houtput : s'.output = output') : Reaches m b (d.push kind ty hint) s' values output' := by
  have hpush := h.runs.push kind ty hint hk hstep hmemory houtput
  rw [← stored_congr (isWritten_push d kind ty hint)] at hpush
  exact hpush.reaches fun hw => h.zero (by rwa [isWritten_push] at hw)

/-- `declare` reserves a slot that nothing is stored to. -/
theorem declare (h : Reaches m b d s values output) (name : String) :
    ∃ s', Reaches m b (d.declare name) s' values output := by
  obtain ⟨s', hdeclare⟩ := h.runs.declare name
  rw [← stored_congr (isWritten_declare d name)] at hdeclare
  exact ⟨s', hdeclare.reaches fun hw => h.zero (by rwa [isWritten_declare] at hw)⟩

/-- `store` of a double changes the value of one variable. -/
theorem store (h : Reaches m b d s values output) {name : String} {v : Variable}
    (hv : d.lookup? name = some v) {x : Operand} {value : Double}
    (hx : s.eval x = .ok (.double value)) :
    Reaches m b (d.store name x) { s with memory := s.memory.insert v.slot (.double value) }
      (fun other => if other = name then value else values other) output := by
  -- Written variables are what is in memory, and the one written now is added to them.
  have hstored :
      (d.store name x).stored (fun other => if other = name then value else values other) =
      fun other => if other = name then some (.double value) else d.stored values other := by
    funext other
    rw [stored, isWritten_store hv]
    by_cases hname : other = name <;> simp [hname, stored]
  have hstore := h.runs.store hv hx
  rw [← hstored] at hstore
  refine hstore.reaches fun hw => ?_
  rw [isWritten_store hv, Bool.or_eq_false_iff, decide_eq_false_iff_not] at hw
  rw [if_neg hw.1, h.zero hw.2]

/-- A load from a variable that was stored to gives its value. -/
theorem load (h : Reaches m b d s values output) {name : String} {v : Variable}
    (hv : d.lookup? name = some v) (hw : d.isWritten name = true) (hint : Option String) :
    Reaches m b (d.push (.load .double (.inst (d.slot name))) .double hint)
      (s.setRegister d.instructions.size (.double (values name))) values output := by
  have hvalue : d.stored values name = some (.double (values name)) := if_pos hw
  exact h.push _ _ _ rfl (h.runs.step_load hv hvalue) rfl h.output

/-- A load from any other variable fails and names its slot. -/
theorem load_eq_error (h : Reaches m b d s values output) {name : String} {v : Variable}
    (hv : d.lookup? name = some v) (hw : d.isWritten name = false) (hint : Option String) :
    (d.push (.load .double (.inst (d.slot name))) .double hint).exec m b =
      .error (.uninitializedLoad ((b.instructions[v.slot]?.bind (·.name)).getD "")) :=
  h.runs.load_eq_error hv (by simp [stored, hw]) hint

end Reaches

end Draft

/-! ### Operands -/

/-- The number that a truth value stands for. -/
def Double.ofBool (t : Bool) : Double := if t then ⟨0x3FF0000000000000⟩ else zero

/-- `widen` gives the number of a truth value. -/
theorem Value.widen_bool (t : Bool) : (Value.bool t).widen = .ok (Double.ofBool t) := by
  show Except.ok (Double.ofNat t.toNat) = _
  cases t <;> exact congrArg Except.ok (by decide)

namespace Operator

/-- What an operator makes of two numbers. A comparison makes one or zero. -/
def eval : Operator → Double → Double → Double
  | arithmetic op, x, y => op.eval x y
  | comparison condition, x, y => Double.ofBool (condition.eval x y)

/-- The value that the instruction of an operator computes. -/
def result : Operator → Double → Double → Value
  | arithmetic op, x, y => .double (op.eval x y)
  | comparison condition, x, y => .bool (condition.eval x y)

/-- The result of an operator has the type of the operator. -/
theorem ty_result (op : Operator) (x y : Double) : (op.result x y).ty = op.ty := by
  cases op <;> rfl

/-- The instruction of an operator computes `op.result`. -/
theorem step_kind (op : Operator) {s : Machine} {x y : Operand} {u v : Double}
    (hx : s.eval x = .ok (.double u)) (hy : s.eval y = .ok (.double v)) (m : Module) (b : Body)
    (i : Nat) : s.step m b i (op.kind x y) = .ok (.next (s.setRegister i (op.result u v))) := by
  cases op <;>
  · rw [kind, Machine.step, Machine.evalDouble, hx, Machine.evalDouble, hy]
    rfl

end Operator

namespace Draft

variable {m : Module} {b : Body} {d d' : Draft} {s s' : Machine} {values : String → Double}
  {output : String}

/-- `d.HasValue s x v`: in the state `s`, the operand `x` has the value `v` and its type. -/
def HasValue (d : Draft) (s : Machine) (x : Operand) (v : Value) : Prop :=
  d.body.typeOf x = v.ty ∧ s.eval x = .ok v

/-- An operand whose type is not `void` was computed, and keeps its value. -/
theorem Grows.eval (h : Grows d d') (hd' : d'.Valid) (hs : d.exec m b = .ok s)
    (hs' : d'.exec m b = .ok s') {x : Operand} (hx : d.body.typeOf x ≠ .void) :
    s'.eval x = s.eval x := by
  cases x with
  | double | i32 | global => rfl
  | inst i =>
    -- What has a type is an instruction that was run before.
    have hi : i < d.instructions.size := by
      rw [typeOf_inst] at hx
      cases hinst : d.instructions[i]? with
      | none => simp [hinst] at hx
      | some inst => exact (Array.getElem?_eq_some_iff.mp hinst).1
    rw [Machine.eval, Machine.eval, h.registers hd' hs hs' hi]

/-- An operand keeps its value when the draft grows. -/
theorem HasValue.grows {x : Operand} {v : Value} (hx : d.HasValue s x v) (h : Grows d d')
    (hd' : d'.Valid) (hs : d.exec m b = .ok s) (hs' : d'.exec m b = .ok s') :
    d'.HasValue s' x v := by
  have htype : d.body.typeOf x ≠ .void := by
    rw [hx.1]
    cases v <;> simp [Value.ty]
  exact ⟨(h.typeOf htype).trans hx.1, (h.eval hd' hs hs' htype).trans hx.2⟩

/-- The result of the next instruction is what its register is set to. -/
theorem hasValue_next (d : Draft) (s : Machine) (kind : Kind) (hint : Option String) (v : Value) :
    (d.push kind v.ty hint).HasValue (s.setRegister d.instructions.size v) d.next v :=
  ⟨typeOf_next _ _ _ _, by rw [next, Machine.eval, Machine.getElem?_setRegister, if_pos rfl]⟩

/-- `d.Carries s x value`: `x` stands for the number `value`, as a double or as a truth value. -/
def Carries (d : Draft) (s : Machine) (x : Operand) (value : Double) : Prop :=
  d.HasValue s x (.double value) ∨ ∃ t, d.HasValue s x (.bool t) ∧ value = Double.ofBool t

theorem carries_double (d : Draft) (s : Machine) (value : Double) :
    d.Carries s (.double value) value := .inl ⟨rfl, rfl⟩

/-- The result of an operator stands for `op.eval`. -/
theorem HasValue.carries_result {op : Operator} {x : Operand} {u v : Double}
    (h : d.HasValue s x (op.result u v)) : d.Carries s x (op.eval u v) := by
  cases op with
  | arithmetic op => exact .inl h
  | comparison condition => exact .inr ⟨_, h, rfl⟩

/-- An operand stands for the same number when the draft grows. -/
theorem Carries.grows {x : Operand} {value : Double} (hx : d.Carries s x value) (h : Grows d d')
    (hd' : d'.Valid) (hs : d.exec m b = .ok s) (hs' : d'.exec m b = .ok s') :
    d'.Carries s' x value := by
  rcases hx with hx | ⟨t, hx, rfl⟩
  · exact .inl (hx.grows h hd' hs hs')
  · exact .inr ⟨t, hx.grows h hd' hs hs', rfl⟩

namespace Reaches

/-- `asDouble` makes a number a double. -/
theorem asDouble (h : Reaches m b d s values output) {x : Operand} {value : Double}
    (hx : d.Carries s x value) :
    ∃ s', Reaches m b (d.asDouble x).2 s' values output ∧
      (d.asDouble x).2.HasValue s' (d.asDouble x).1 (.double value) := by
  rcases hx with hx | ⟨t, hx, rfl⟩
  · rw [asDouble_of_ne (by simp [hx.1, Value.ty])]
    exact ⟨s, h, hx⟩
  · rw [asDouble_of_i1 hx.1]
    have hstep := Machine.step_widen m b d.instructions.size hx.2 (Value.widen_bool t)
    exact ⟨_, h.push (.widen x) .double (some "booltmp") rfl hstep rfl h.output,
      hasValue_next d s _ _ (.double _)⟩

/-- `apply` computes `op.eval` of two numbers. -/
theorem apply (h : Reaches m b d s values output) (op : Operator) {x y : Operand} {u v : Double}
    (hx : d.Carries s x u) (hy : d.Carries s y v) :
    ∃ s', Reaches m b (d.apply op x y).2 s' values output ∧
      (d.apply op x y).2.Carries s' (d.apply op x y).1 (op.eval u v) := by
  obtain ⟨s₁, h₁, hx₁⟩ := h.asDouble hx
  obtain ⟨s₂, h₂, hy₂⟩ := h₁.asDouble (hy.grows (grows_asDouble d x) h₁.valid h.exec h₁.exec)
  -- The left operand keeps its value while the right one is widened.
  have hx₂ := hx₁.grows (grows_asDouble _ y) h₂.valid h₁.exec h₂.exec
  have hstep := op.step_kind hx₂.2 hy₂.2 m b ((d.asDouble x).2.asDouble y).2.instructions.size
  have hnext := hasValue_next ((d.asDouble x).2.asDouble y).2 s₂ (op.kind (d.asDouble x).1
    ((d.asDouble x).2.asDouble y).1) (some op.hint) (op.result u v)
  rw [op.ty_result] at hnext
  have hpush := h₂.push _ op.ty (some op.hint) (op.isTerminator_kind _ _) hstep rfl h₂.output
  exact ⟨_, hpush, hnext.carries_result⟩

/-- `prepare` leaves all values as they are: what it stores counted as zero before. -/
theorem prepare (h : Reaches m b d s values output) {name : String} {v : Variable}
    (hv : d.lookup? name = some v) (policy : ReadPolicy) :
    ∃ s', Reaches m b (d.prepare policy name) s' values output := by
  unfold Draft.prepare
  split
  · next hzero =>
    have hstore := h.store hv (x := .double Double.zero) rfl
    -- The variable counted as zero before.
    have hvalues : (fun other => if other = name then Double.zero else values other) = values := by
      funext other
      split
      · next hname => rw [hname, h.zero hzero.2]
      · rfl
    rw [hvalues] at hstore
    exact ⟨_, hstore⟩
  · exact ⟨s, h⟩

/-- `read` gives the value of a variable that is written or may count as zero. -/
theorem read (h : Reaches m b d s values output) {policy : ReadPolicy} {name : String}
    (hread : policy ≠ .zeroInit → d.isWritten name = true) :
    ∃ s', Reaches m b (d.read policy name).2 s' values output ∧
      (d.read policy name).2.Carries s' (d.read policy name).1 (values name) := by
  obtain ⟨s₁, h₁⟩ := h.declare name
  obtain ⟨s₂, h₂⟩ := h₁.prepare (lookup?_declare_self d name) policy
  obtain ⟨v, hv, -⟩ := (grows_prepare _ policy name).lookup? (lookup?_declare_self d name)
  have hw := isWritten_prepare (lookup?_declare_self d name) (by rwa [isWritten_declare])
  have hload := h₂.load hv hw (some name)
  exact ⟨_, hload, .inl (hasValue_next _ s₂ _ _ (.double (values name)))⟩

/-- Without a store of zero, the read of a variable that was not stored to fails. -/
theorem read_eq_error (h : Reaches m b d s values output) {policy : ReadPolicy} {name : String}
    (hpolicy : policy ≠ .zeroInit) (hw : d.isWritten name = false) :
    (d.read policy name).2.exec m b =
      .error (.uninitializedLoad ((b.instructions[d.slot name]?.bind (·.name)).getD "")) := by
  obtain ⟨s₁, h₁⟩ := h.declare name
  rw [Draft.read, prepare_of_ne hpolicy]
  exact h₁.load_eq_error (lookup?_declare_self d name) (by rwa [isWritten_declare]) _

/-- `write` changes the value of one variable. -/
theorem write (h : Reaches m b d s values output) (name : String) {x : Operand} {value : Double}
    (hx : d.Carries s x value) :
    ∃ s', Reaches m b (d.write name x) s'
      (fun other => if other = name then value else values other) output := by
  obtain ⟨s₁, h₁⟩ := h.declare name
  obtain ⟨s₂, h₂, hx₂⟩ := h₁.asDouble (hx.grows (.declare name .refl) h₁.valid h.exec h₁.exec)
  have hv := lookup?_declare_self d name
  exact ⟨_, h₂.store ((lookup?_asDouble _ x name).trans hv) hx₂.2⟩

/-- `printf` prints a value with a format. -/
theorem printf (h : Reaches m b d s values output) {format : String} {x : Operand} {v : Value}
    {text : String} (hd : (d.printf format x).Within m b) (hx : s.eval x = .ok v)
    (htext : m.printf [.pointer (.global d.constants.size), v] = .ok text) :
    ∃ s', Reaches m b (d.printf format x) s' values (output ++ text) := by
  obtain ⟨s', hprintf, -⟩ := h.runs.printf hd hx htext
  have hwritten : ∀ name, (d.printf format x).isWritten name = d.isWritten name :=
    isWritten_congr (vars_printf d format x)
  rw [← stored_congr hwritten] at hprintf
  exact ⟨s', hprintf.reaches fun hw => h.zero (by rwa [hwritten] at hw)⟩

/-- `printNumber` prints a number with six decimal places and a newline. -/
theorem printNumber (h : Reaches m b d s values output) {x : Operand} {value : Double}
    (hd : (d.printNumber x).Within m b) (hx : d.Carries s x value) :
    ∃ s', Reaches m b (d.printNumber x) s' values (output ++ (value.toFixed 6 ++ "\n")) := by
  obtain ⟨s₁, h₁, hx₁⟩ := h.asDouble hx
  exact h₁.printf hd hx₁.2 (Module.printf_number (constants_printf hd) value)

/-- `printString` prints a text and a newline. -/
theorem printString (h : Reaches m b d s values output) {text : String}
    (hd : (d.printString text).Within m b) :
    ∃ s', Reaches m b (d.printString text) s' values (output ++ (text ++ "\n")) := by
  have hconstant : Reaches m b (d.constant text) s values output :=
    { h with valid := (Grows.constant text .refl).valid h.valid }
  have htext : m.globals[d.constants.size]?.map (·.bytes) = some text.toByteArray :=
    (hd.of_grows (grows_printf _ _ _)).constants Array.getElem?_push_size
  exact hconstant.printf hd rfl (Module.printf_text (constants_printf hd) htext)

end Reaches

/-! ### Slots at the end -/

/-- The name of the slot of a variable. -/
def slotName (d : Draft) (name : String) : String :=
  (d.instructions[d.slot name]?.bind (·.name)).getD ""

/-- The slot of a variable is an instruction with the name `slotName`. -/
theorem Valid.getElem?_slot {d : Draft} (h : d.Valid) {v : Variable} (hv : v ∈ d.vars) :
    ∃ inst, d.instructions[v.slot]? = some inst ∧ inst.name = some (d.slotName v.name) := by
  obtain ⟨name, hi⟩ := h.alloca v hv
  refine ⟨_, hi, ?_⟩
  rw [slotName, slot_of_lookup? (h.lookup?_eq hv), hi]
  rfl

/-- Different variables have slots of different names. -/
theorem Valid.eq_of_slotName_eq {d : Draft} (h : d.Valid) (hnames : d.UniqueNames) {u v : Variable}
    (hu : u ∈ d.vars) (hv : v ∈ d.vars) (heq : d.slotName u.name = d.slotName v.name) : u = v := by
  obtain ⟨a, ha, hna⟩ := h.getElem?_slot hu
  obtain ⟨c, hc, hnc⟩ := h.getElem?_slot hv
  exact eq_of_nodup h.slots hu hv (hnames.index_unique ha hc hna (heq ▸ hnc))

namespace Reaches

/-- Memory holds the values of the variables that were stored to. -/
theorem getElem?_memory_iff (h : Reaches m b d s values output) {i : Nat} {value : Value} :
    s.memory[i]? = some value ↔
      ∃ v ∈ d.vars, v.written = true ∧ v.slot = i ∧ value = .double (values v.name) := by
  constructor
  · intro hi
    obtain ⟨v, hv, rfl⟩ := h.slots i value hi
    rw [h.memory v hv] at hi
    split at hi
    · next hw => exact ⟨v, hv, hw, rfl, (Option.some.inj hi).symm⟩
    · cases hi
  · rintro ⟨v, hv, hw, rfl, rfl⟩
    rw [h.memory v hv, if_pos hw]

/-- The slots at the end are those of the variables that were stored to. -/
theorem mem_slots (h : Reaches m b d s values output) (hd : d.Within m b) {entry : String × Value} :
    entry ∈ s.slots b ↔
      ∃ v ∈ d.vars, v.written = true ∧ entry = (d.slotName v.name, .double (values v.name)) := by
  unfold Machine.slots
  dsimp only
  rw [(List.mergeSort_perm _ _).mem_iff, List.mem_filterMap]
  constructor
  · rintro ⟨⟨i, value⟩, hmem, hentry⟩
    -- What is in memory was written to the slot of a variable.
    obtain ⟨v, hv, hw, rfl, rfl⟩ :=
      h.getElem?_memory_iff.mp (Std.TreeMap.mem_toList_iff_getElem?_eq_some.mp hmem)
    obtain ⟨inst, hinst, hname⟩ := h.valid.getElem?_slot hv
    rw [hd.instructions hinst, Option.bind_some, hname] at hentry
    exact ⟨v, hv, hw, (Option.some.inj hentry).symm⟩
  · rintro ⟨v, hv, hw, rfl⟩
    obtain ⟨inst, hinst, hname⟩ := h.valid.getElem?_slot hv
    refine ⟨(v.slot, .double (values v.name)), ?_, ?_⟩
    · exact Std.TreeMap.mem_toList_iff_getElem?_eq_some.mpr
        (h.getElem?_memory_iff.mpr ⟨v, hv, hw, rfl, rfl⟩)
    · rw [hd.instructions hinst, Option.bind_some, hname]
      rfl

/-- No two slots at the end have the same name. -/
theorem nodup_slots (h : Reaches m b d s values output) (hd : d.Within m b)
    (hnames : d.UniqueNames) :
    ((s.slots b).map (·.1)).Nodup := by
  unfold Machine.slots
  dsimp only
  rw [((List.mergeSort_perm _ _).map _).nodup_iff, List.map_filterMap, List.Nodup,
    List.pairwise_filterMap]
  -- A slot in memory was reserved by an instruction of the draft, and that has a name of its own.
  have hinst : ∀ {i : Nat} {x : Value} {name : String}, (i, x) ∈ s.memory.toList →
      ((b.instructions[i]?.bind (·.name)).map (·, x)).map (·.1) = some name →
      ∃ inst, d.instructions[i]? = some inst ∧ inst.name = some name := by
    intro i x name hmem hname
    obtain ⟨v, hv, -, rfl, -⟩ :=
      h.getElem?_memory_iff.mp (Std.TreeMap.mem_toList_iff_getElem?_eq_some.mp hmem)
    obtain ⟨inst, hinst, hslot⟩ := h.valid.getElem?_slot hv
    refine ⟨inst, hinst, ?_⟩
    rw [hd.instructions hinst, Option.bind_some, hslot] at hname
    rw [hslot]
    exact hname
  refine Std.TreeMap.distinct_keys_toList.imp_of_mem ?_
  rintro ⟨i, x⟩ ⟨j, y⟩ hi hj hij name hname other hother rfl
  obtain ⟨a, ha, hna⟩ := hinst hi hname
  obtain ⟨c, hc, hnc⟩ := hinst hj hother
  exact hij (Nat.compare_eq_eq.mpr (hnames.index_unique ha hc hna hnc))

end Reaches

end Draft

end Straightline
