import Straightline.Proofs.Emission.WellFormed
import Straightline.Proofs.Execution.Running

/-!
# Types at run time

In the code every operand has a type, and what is loaded from a slot is said to be a double. What is
stored is not checked, so values have these types at run time only if the stores are of doubles.

* `Body.StoresDoubles` says that they are. `Body.HasTypes` holds of every body that calls lead to.
* `Machine.Typed` says that values have the types of the code. `Machine.Typed.step` is for one
  instruction, and `Machine.Passes.typed` for every state that a run passes through.
-/

namespace Straightline

open Draft

namespace Body

/-- `b.StoresDoubles`: every store is of a double. -/
def StoresDoubles (b : Body) : Prop :=
  ∀ inst ∈ b.instructions, ∀ value ptr, inst.kind = .store value ptr → b.typeOf value = .double

/-- `b.HasTypes`: every instruction has its `resultTy`, and loads are loads of doubles. -/
def HasTypes (b : Body) : Prop :=
  ∀ inst ∈ b.instructions, inst.ty = inst.kind.resultTy ∧
    ∀ ty ptr, inst.kind = .load ty ptr → ty = .double

/-- What a block lists stands at its index. -/
theorem getElem?_of_mem_contents {b : Body} {block : Block} {p : Nat × Instruction}
    (h : p ∈ b.contents block) :
    b.instructions[p.1]? = some p.2 := by
  obtain ⟨i, -, hi⟩ := List.mem_filterMap.mp h
  obtain ⟨inst, hinst, rfl⟩ := Option.map_eq_some_iff.mp hi
  exact hinst

end Body

/-- The body of a sound draft has types. -/
theorem Draft.Sound.hasTypes {d : Draft} (h : d.Sound) : d.body.HasTypes := by
  intro inst hinst
  obtain ⟨i, hi⟩ := Array.getElem?_of_mem hinst
  have hsound := h i inst hi
  refine ⟨hsound.ty, fun ty ptr hkind => ?_⟩
  have hfits := hsound.fits
  rw [hkind] at hfits
  exact hfits.1

namespace Machine

variable {m : Module} {b : Body} {s s' : Machine}

/-- `Typed b s`: results have the types that they have in the code `b`, and the slots hold
    doubles. -/
structure Typed (b : Body) (s : Machine) : Prop where
  registers : ∀ (i : Nat) (v : Value), s.registers[i]? = some v → v.ty = b.typeOf (.inst i)
  memory : ∀ (i : Nat) (v : Value), s.memory[i]? = some v → v.ty = .double

/-- The first state of a run is typed. -/
theorem typed_empty (b : Body) : Typed b {} := ⟨by simp, by simp⟩

/-- The value of an operand has its type in the code. -/
theorem Typed.eval (h : Typed b s) {x : Operand} {v : Value} (hx : s.eval x = .ok v) :
    v.ty = b.typeOf x := by
  cases x with
  | double | i32 | global =>
    obtain rfl := Except.ok.inj hx
    rfl
  -- A register holds a value of the type of its instruction.
  | inst i =>
    rw [Machine.eval] at hx
    cases hv : s.registers[i]? with
    | none =>
      rw [hv] at hx
      cases hx
    | some w =>
      rw [hv] at hx
      obtain rfl := Except.ok.inj hx
      exact h.registers i w hv

/-- A result of the right type keeps a state typed. -/
theorem Typed.setRegister (h : Typed b s) {i : Nat} {v : Value} (hv : v.ty = b.typeOf (.inst i)) :
    Typed b (s.setRegister i v) where
  registers := by
    intro j w hj
    rw [getElem?_setRegister] at hj
    by_cases hij : i = j
    · rw [if_pos hij] at hj
      obtain rfl := Option.some.inj hj
      exact hij ▸ hv
    · rw [if_neg hij] at hj
      exact h.registers j w hj
  memory := h.memory

/-- A store of a double keeps a state typed. -/
theorem Typed.store (h : Typed b s) (slot : Nat) {v : Value} (hv : v.ty = .double) :
    Typed b { s with memory := s.memory.insert slot v } where
  registers := h.registers
  memory := by
    intro i w hi
    dsimp only at hi
    rw [Std.TreeMap.getElem?_insert] at hi
    split at hi
    · obtain rfl := Option.some.inj hi
      exact hv
    · exact h.memory i w hi

/-- A load gives a double. -/
theorem Typed.load (h : Typed b s) {slot : Nat} {v : Value} (hv : s.load b slot = .ok v) :
    v.ty = .double := by
  unfold Machine.load at hv
  split at hv
  · next w hw =>
    obtain rfl := Except.ok.inj hv
    exact h.memory slot w hw
  · cases hv

/-- Every instruction keeps a state typed, if the stores are of doubles. -/
theorem Typed.step (h : Typed b s) (hb : b.HasTypes) (hstores : b.StoresDoubles) {i : Nat}
    {inst : Instruction} (hi : b.instructions[i]? = some inst)
    (hstep : s.step m b i inst.kind = .ok (.next s')) :
    Typed b s' := by
  obtain ⟨hty, hload⟩ := hb inst (Array.mem_of_getElem? hi)
  have hstore := hstores inst (Array.mem_of_getElem? hi)
  have htype : b.typeOf (.inst i) = inst.kind.resultTy := by
    rw [Body.typeOf, hi]
    exact hty
  cases hkind : inst.kind with
  | ret value =>
    rw [hkind] at hstep
    cases value with
    | none => cases hstep
    | some value =>
      obtain ⟨v, -, hstep⟩ := bind_eq_ok_iff.mp hstep
      cases hstep
  | alloca ty =>
    rw [hkind] at hstep htype
    cases hstep
    exact h.setRegister htype.symm
  | store value ptr =>
    rw [hkind] at hstep
    obtain ⟨v, hv, hstep⟩ := bind_eq_ok_iff.mp hstep
    obtain ⟨slot, -, hstep⟩ := bind_eq_ok_iff.mp hstep
    cases hstep
    exact h.store slot ((h.eval hv).trans (hstore value ptr hkind))
  | load ty ptr =>
    rw [hkind] at hstep htype
    obtain ⟨slot, -, hstep⟩ := bind_eq_ok_iff.mp hstep
    obtain ⟨v, hv, hstep⟩ := bind_eq_ok_iff.mp hstep
    cases hstep
    -- What is loaded is a double, as is what every slot holds.
    have hdouble : b.typeOf (.inst i) = .double := htype.trans (hload ty ptr hkind)
    exact h.setRegister ((h.load hv).trans hdouble.symm)
  | call callee args =>
    rw [hkind] at hstep htype
    obtain ⟨⟨v, s₁⟩, hcall, hstep⟩ := bind_eq_ok_iff.mp hstep
    obtain ⟨n, text, rfl, rfl⟩ := exists_of_call hcall
    cases hstep
    have hprinted : Typed b { s with output := s.output ++ text } := ⟨h.registers, h.memory⟩
    exact hprinted.setRegister htype.symm
  | binary op lhs rhs | compare condition lhs rhs | widen value =>
    rw [hkind] at hstep htype
    obtain ⟨x, -, hstep⟩ := bind_eq_ok_iff.mp hstep
    obtain ⟨y, -, hstep⟩ := bind_eq_ok_iff.mp hstep
    cases hstep
    exact h.setRegister htype.symm

/-- Instructions in a row keep a state typed. -/
theorem Typed.run (h : Typed b s) (hb : b.HasTypes) (hstores : b.StoresDoubles)
    {code : List (Nat × Instruction)} (hcode : ∀ p ∈ code, b.instructions[p.1]? = some p.2)
    (hrun : code.foldlM (fun s p => s.advance m b p.1 p.2.kind) s = .ok s') : Typed b s' := by
  induction code generalizing s with
  | nil =>
    cases hrun
    exact h
  | cons p code ih =>
    rw [List.foldlM_cons] at hrun
    obtain ⟨s₁, hp, hrest⟩ := bind_eq_ok_iff.mp hrun
    obtain ⟨o, hstep, ho⟩ := bind_eq_ok_iff.mp hp
    -- What one instruction leaves is typed, and the rest starts there.
    refine ih ?_ (fun q hq => hcode q (by simp [hq])) hrest
    cases o with
    | next s₂ =>
      cases ho
      exact h.step hb hstores (hcode p (by simp)) hstep
    | returned value =>
      cases ho
      exact h

/-- `Passes m b s`: the run of the first block of `b` passes through `s`. -/
def Passes (m : Module) (b : Body) (s : Machine) : Prop :=
  ∃ block n, b.blocks[0]? = some block ∧
    ((b.contents block).take n).foldlM (fun (s : Machine) p => s.advance m b p.1 p.2.kind) {} =
      .ok s

/-- Every state that a run passes through is typed, if the stores are of doubles. -/
theorem Passes.typed (h : Passes m b s) (hb : b.HasTypes) (hstores : b.StoresDoubles) :
    Typed b s := by
  obtain ⟨block, n, -, hrun⟩ := h
  exact (typed_empty b).run hb hstores
    (fun p hp => Body.getElem?_of_mem_contents (List.mem_of_mem_take hp)) hrun

end Machine

end Straightline
