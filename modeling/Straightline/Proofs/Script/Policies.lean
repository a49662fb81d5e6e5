import Straightline.Proofs.Emission.Listing
import Straightline.Proofs.Script.Meaning

/-!
# Policies for reads before any assignment

The three policies differ only at a read that comes before any assignment to its variable.

* `Script.lower_eq`: without such a read, the code is the same under all policies.
* `Draft.size_eq_of_text_eq`: a text tells how many instructions there are. With such a read, the
  code under `zeroInit` is longer than under `preserve`, so the texts differ
  (`Script.eq_or_behind`).
* `Script.exec_eq_error`: with such a read, the code under `preserve` fails there when it is run.
* `policies_agree` puts these together.
-/

namespace Straightline

open Draft

/-! ### Scripts without such a read -/

/-- `d.read` does the same under all policies if the variable is written. -/
theorem Draft.read_of_written {d : Draft} {name : String} (h : d.isWritten name = true)
    (policy policy' : ReadPolicy) : d.read policy name = d.read policy' name := by
  have hdeclare : (d.declare name).isWritten name = true := by rwa [isWritten_declare]
  rw [read, read, prepare_of_written hdeclare, prepare_of_written hdeclare]

/-- `e.lower` does the same under all policies if all variables that it reads are written. -/
theorem Expr.lower_eq (e : Expr Operator) {d : Draft} (h : ∀ name ∈ e.vars, d.isWritten name = true)
    (policy policy' : ReadPolicy) : e.lower policy d = e.lower policy' d := by
  induction e generalizing d with
  | literal value => rfl
  | var name => exact read_of_written (h name (by simp [Expr.vars])) policy policy'
  | negate operand ih => rw [lower_negate, lower_negate, ih h]
  | binary op lhs rhs ihl ihr =>
    have hright : ∀ name ∈ rhs.vars, (lhs.lower policy' d).2.isWritten name = true := fun name hn =>
      (lhs.grows_lower policy' d).isWritten (h name (by simp [Expr.vars, hn]))
    rw [lower_binary, lower_binary, ihl fun name hn => h name (by simp [Expr.vars, hn]), ihr hright]

/-- `s.lower` does the same under all policies if all variables that it reads are written. -/
theorem Statement.lower_eq (s : Statement Operator) {d : Draft}
    (h : ∀ name ∈ s.reads, d.isWritten name = true) (policy policy' : ReadPolicy) :
    s.lower policy d = s.lower policy' d := by
  cases s with
  | printString text => rfl
  | printNumber value | assign name value =>
    rw [Statement.lower, Statement.lower, value.lower_eq h policy policy']

/-- `script.lower` does the same under all policies if `d.Admits script.accesses`. -/
theorem Script.lower_eq (script : Script Operator) {d : Draft} (h : d.Admits script.accesses)
    (policy : ReadPolicy) : script.lower policy d = script.lower .preserve d := by
  induction script generalizing d with
  | nil => rfl
  | cons s script ih =>
    rw [Script.lower_cons, Script.lower_cons,
      s.lower_eq (fun name hn => h.isWritten hn) policy .preserve]
    exact ih (h.lower (by simp))

/-! ### Lengths of programs -/

/-- The functions of a program take one line for each instruction, and a fixed number of others. -/
theorem Draft.lineBreaks_functions (d : Draft) (name : String) :
    lineBreaks ((d.module name).functions.toList.flatMap
      fun f => "" :: (d.module name).functionLines f) =
      d.instructions.size + if d.declaresPrintf then 6 else 4 := by
  have hmain : lineBreaks ((d.module name).functionLines ⟨mainPrototype, some d.body⟩) =
      d.instructions.size + 3 := by
    rw [lineBreaks_eq_length (d.isLine_lines_main name), lines_main, List.length_append,
      List.length_append, List.length_map, Array.length_toList]
    show 2 + d.instructions.size + 1 = _
    omega
  -- A blank line in front of each function, and one more line for the declaration of `printf`.
  have hblank : lineBreaks [""] = 1 := by decide
  rw [lines_functions, lineBreaks_append, ← List.singleton_append, lineBreaks_append, hmain, hblank,
    declarationLines]
  split
  · have hprintf : lineBreaks ["", "declare " ++ printfPrototype.text] = 2 := by decide
    omega
  · have hnil : lineBreaks [] = 0 := rfl
    omega

/-- The text of a program takes one line for each instruction, and others for the header, the
    constants and the functions. -/
theorem Draft.newlines_module (d : Draft) (name : String) :
    newlines (d.module name).text =
      lineBreaks (d.module name).headerLines + lineBreaks (d.module name).globalLines +
        (d.instructions.size + if d.declaresPrintf then 6 else 4) := by
  rw [Module.newlines_text, Module.lines, lineBreaks_append, lineBreaks_append,
    lineBreaks_functions]

/-- Programs with the same constants and functions that have the same text are equally long. -/
theorem Draft.size_eq_of_text_eq {d d' : Draft} (hconstants : d.constants = d'.constants)
    (hprintf : d.declaresPrintf = d'.declaresPrintf) {name : String}
    (h : (d.module name).text = (d'.module name).text) :
    d.instructions.size = d'.instructions.size := by
  have hheader : (d.module name).headerLines = (d'.module name).headerLines := rfl
  have hglobals : (d.module name).globalLines = (d'.module name).globalLines := by
    have : (d.module name).globals = (d'.module name).globals :=
      congrArg (·.mapIdx Global.mk) hconstants
    rw [Module.globalLines, Module.globalLines, this]
  have hcount := congrArg newlines h
  rw [newlines_module, newlines_module, hheader, hglobals, hprintf] at hcount
  omega

/-! ### Code under `zeroInit` is longer -/

/-- `SameTy p x z y`: `x` in `p` and `y` in `z` are numbers of the same type. -/
structure Draft.SameTy (p : Draft) (x : Operand) (z : Draft) (y : Operand) : Prop where
  isNumber : p.IsNumber x
  typeOf : z.body.typeOf y = p.body.typeOf x

/-- A double has the same type in all drafts. -/
theorem Draft.sameTy_double (p z : Draft) (value : Double) :
    SameTy p (.double value) z (.double value) := ⟨.inl rfl, rfl⟩

/-- `SameTy` stays while the drafts grow. -/
theorem Draft.SameTy.grows {p p' z z' : Draft} {x y : Operand} (h : SameTy p x z y)
    (hp : Grows p p') (hz : Grows z z') : SameTy p' x z' y := by
  have hy : z.IsNumber y := by
    rw [IsNumber, h.typeOf]
    exact h.isNumber
  refine ⟨h.isNumber.grows hp, ?_⟩
  rw [hy.typeOf_eq hz, h.isNumber.typeOf_eq hp, h.typeOf]

/-- The values of `e.lower` in two drafts have the same type. -/
theorem Expr.sameTy_lower (e : Expr Operator) (policy policy' : ReadPolicy) (p z : Draft) :
    SameTy (e.lower policy p).2 (e.lower policy p).1 (e.lower policy' z).2 (e.lower policy' z).1 :=
  ⟨e.isNumber_lower policy p, by rw [typeOf_lower, typeOf_lower]⟩

/-- `Behind p z`: the draft `p` is shorter than `z`, has the same variables and prints the same. -/
structure Draft.Behind (p z : Draft) : Prop where
  declared : ∀ name, p.isDeclared name = z.isDeclared name
  constants : p.constants = z.constants
  declaresPrintf : p.declaresPrintf = z.declaresPrintf
  size : p.instructions.size < z.instructions.size

namespace Draft.Behind

variable {p z : Draft}

/-- One more instruction in both. -/
theorem push (h : Behind p z) (kind kind' : Kind) (ty : Ty) (hint : Option String) :
    Behind (p.push kind ty hint) (z.push kind' ty hint) where
  declared name := by
    rw [isDeclared_congr (vars_push _ _ _ _), isDeclared_congr (vars_push _ _ _ _), h.declared]
  constants := by rw [constants_push, constants_push, h.constants]
  declaresPrintf := by rw [declaresPrintf_push, declaresPrintf_push, h.declaresPrintf]
  size := by
    rw [instructions_push, instructions_push, Array.size_push, Array.size_push]
    exact Nat.succ_lt_succ h.size

/-- `Behind` goes through `declare`. -/
theorem declare (h : Behind p z) (name : String) : Behind (p.declare name) (z.declare name) := by
  have hdeclared := h.declared name
  unfold isDeclared at hdeclared
  cases hp : p.lookup? name with
  | some v =>
    obtain ⟨w, hz⟩ : ∃ w, z.lookup? name = some w := by
      rw [← Option.isSome_iff_exists, ← hdeclared, hp]
      rfl
    rwa [declare_of_lookup? hp, declare_of_lookup? hz]
  | none =>
    have hz : z.lookup? name = none := by
      rw [← Option.isNone_iff_eq_none, ← Option.not_isSome, ← hdeclared, hp]
      rfl
    -- The name is new to both, so both reserve a slot.
    have hpush := h.push (.alloca .double) (.alloca .double) .ptr (some name)
    refine ⟨fun other => ?_, ?_, ?_, ?_⟩
    · rw [isDeclared_declare, isDeclared_declare, h.declared]
    · rw [declare_of_new hp, declare_of_new hz]
      exact hpush.constants
    · rw [declare_of_new hp, declare_of_new hz]
      exact hpush.declaresPrintf
    · rw [declare_of_new hp, declare_of_new hz]
      exact hpush.size

/-- `Behind` goes through `store`. -/
theorem store (h : Behind p z) (name : String) (x y : Operand) :
    Behind (p.store name x) (z.store name y) where
  declared other := by rw [isDeclared_store, isDeclared_store, h.declared]
  constants := h.constants
  declaresPrintf := h.declaresPrintf
  size := by
    rw [instructions_store, instructions_store, Array.size_push, Array.size_push]
    exact Nat.succ_lt_succ h.size

/-- `Behind` goes through `prepare`, which only `z` makes a store for. -/
theorem prepare (h : Behind p z) (name : String) :
    Behind (p.prepare .preserve name) (z.prepare .zeroInit name) := by
  rw [prepare_of_ne (by decide)]
  unfold Draft.prepare
  split
  · refine ⟨fun other => ?_, h.constants, h.declaresPrintf, ?_⟩
    · rw [isDeclared_store, h.declared]
    · rw [instructions_store, Array.size_push]
      exact Nat.lt_succ_of_lt h.size
  · exact h

/-- `Behind` goes through `read`. -/
theorem read (h : Behind p z) (name : String) :
    Behind (p.read .preserve name).2 (z.read .zeroInit name).2 :=
  ((h.declare name).prepare name).push (.load .double _) (.load .double _) .double (some name)

/-- `Behind` goes through `asDouble`, if the operands have the same type. -/
theorem asDouble (h : Behind p z) {x y : Operand} (hx : SameTy p x z y) :
    Behind (p.asDouble x).2 (z.asDouble y).2 := by
  by_cases hty : p.body.typeOf x = .i1
  · rw [asDouble_of_i1 hty, asDouble_of_i1 (hx.typeOf.trans hty)]
    exact h.push (.widen x) (.widen y) .double (some "booltmp")
  · rw [asDouble_of_ne hty, asDouble_of_ne (hx.typeOf.trans_ne hty)]
    exact h

/-- `Behind` goes through `write`, if the operands have the same type. -/
theorem write (h : Behind p z) (name : String) {x y : Operand} (hx : SameTy p x z y) :
    Behind (p.write name x) (z.write name y) :=
  ((h.declare name).asDouble (hx.grows (.declare name .refl) (.declare name .refl))).store name _ _

/-- `Behind` goes through `apply`, if the operands have the same types. -/
theorem apply (h : Behind p z) (op : Operator) {x x' y y' : Operand} (hx : SameTy p x z x')
    (hy : SameTy p y z y') : Behind (p.apply op x y).2 (z.apply op x' y').2 := by
  have hright := (h.asDouble hx).asDouble (hy.grows (grows_asDouble p x) (grows_asDouble z x'))
  rw [apply_eq, apply_eq]
  exact hright.push (op.kind _ _) (op.kind _ _) op.ty (some op.hint)

/-- `Behind` goes through `printf`. -/
theorem printf (h : Behind p z) (format : String) (x y : Operand) :
    Behind (p.printf format x) (z.printf format y) := by
  have hconstant : Behind { p.constant format with declaresPrintf := true }
      { z.constant format with declaresPrintf := true } :=
    ⟨h.declared, congrArg (·.push format.toByteArray) h.constants, rfl, h.size⟩
  exact hconstant.push _ _ _ _

/-- `Behind` goes through `printNumber`, if the operands have the same type. -/
theorem printNumber (h : Behind p z) {x y : Operand} (hx : SameTy p x z y) :
    Behind (p.printNumber x) (z.printNumber y) := (h.asDouble hx).printf "%f\n" _ _

/-- `Behind` goes through `printString`. -/
theorem printString (h : Behind p z) (text : String) :
    Behind (p.printString text) (z.printString text) := by
  have hconstant : Behind (p.constant text) (z.constant text) :=
    ⟨h.declared, congrArg (·.push text.toByteArray) h.constants, h.declaresPrintf, h.size⟩
  exact hconstant.printf "%s\n" _ _

end Draft.Behind

/-- `d.read .zeroInit name` makes one more store than `d.read .preserve name`, unless the variable
    is written. -/
theorem Draft.behind_read {d : Draft} {name : String} (h : d.isWritten name = false) :
    Behind (d.read .preserve name).2 (d.read .zeroInit name).2 := by
  have hunwritten : (d.declare name).isWritten name = false := by rwa [isWritten_declare]
  have hstore : Behind ((d.declare name).prepare .preserve name)
      ((d.declare name).prepare .zeroInit name) := by
    rw [prepare_of_ne (by decide), prepare_of_unwritten hunwritten]
    refine ⟨fun other => (isDeclared_store _ _ _ _).symm, rfl, rfl, ?_⟩
    rw [instructions_store, Array.size_push]
    exact Nat.lt_succ_self _
  exact hstore.push (.load .double _) (.load .double _) .double (some name)

section

variable {p z : Draft}

/-- The case of a minus sign. -/
theorem Expr.behind_negate {e : Expr Operator}
    (h : Behind (e.lower .preserve p).2 (e.lower .zeroInit z).2) :
    Behind ((negate e).lower .preserve p).2 ((negate e).lower .zeroInit z).2 := by
  rw [lower_negate, lower_negate]
  exact h.apply (.arithmetic .sub) (sameTy_double _ _ _) (e.sameTy_lower _ _ _ _)

/-- The case of an operator. -/
theorem Expr.behind_binary (op : Operator) {l r : Expr Operator}
    (h : Behind (r.lower .preserve (l.lower .preserve p).2).2
      (r.lower .zeroInit (l.lower .zeroInit z).2).2) :
    Behind ((binary op l r).lower .preserve p).2 ((binary op l r).lower .zeroInit z).2 := by
  rw [lower_binary, lower_binary]
  -- The left operand keeps its type while the right one is computed.
  have hleft := (l.sameTy_lower .preserve .zeroInit p z).grows (r.grows_lower .preserve _)
    (r.grows_lower .zeroInit _)
  exact h.apply op hleft (r.sameTy_lower _ _ _ _)

/-- `e.lower` leaves behind what is behind. -/
theorem Expr.behind_lower (e : Expr Operator) (h : Behind p z) :
    Behind (e.lower .preserve p).2 (e.lower .zeroInit z).2 := by
  induction e generalizing p z with
  | literal value => exact h
  | var name => exact h.read name
  | negate operand ih => exact behind_negate (ih h)
  | binary op lhs rhs ihl ihr => exact behind_binary op (ihr (ihl h))

/-- `s.lower` leaves behind what is behind. -/
theorem Statement.behind_lower (s : Statement Operator) (h : Behind p z) :
    Behind (s.lower .preserve p) (s.lower .zeroInit z) := by
  cases s with
  | printString text => exact h.printString text
  | printNumber value =>
    exact (value.behind_lower h).printNumber (value.sameTy_lower _ _ _ _)
  | assign name value =>
    exact (value.behind_lower h).write name (value.sameTy_lower _ _ _ _)

/-- `script.lower` leaves behind what is behind. -/
theorem Script.behind_lower (script : Script Operator) (h : Behind p z) :
    Behind (script.lower .preserve p) (script.lower .zeroInit z) := by
  induction script generalizing p z with
  | nil => exact h
  | cons s script ih => exact ih (s.behind_lower h)

end

/-- `e.lower` does the same under `preserve` as under `zeroInit`, or is `Behind` it. -/
theorem Expr.eq_or_behind (e : Expr Operator) (d : Draft) :
    e.lower .preserve d = e.lower .zeroInit d ∨
      Behind (e.lower .preserve d).2 (e.lower .zeroInit d).2 := by
  induction e generalizing d with
  | literal value => exact .inl rfl
  -- Only a read of what was not written differs, and what is behind once stays behind.
  | var name =>
    cases hw : d.isWritten name with
    | true => exact .inl (read_of_written hw _ _)
    | false => exact .inr (behind_read hw)
  | negate operand ih =>
    rcases ih d with heq | hbehind
    · exact .inl (by rw [lower_negate, lower_negate, heq])
    · exact .inr (behind_negate hbehind)
  | binary op lhs rhs ihl ihr =>
    rcases ihl d with heq | hbehind
    · rcases ihr (lhs.lower .zeroInit d).2 with heq' | hbehind
      · exact .inl (by rw [lower_binary, lower_binary, heq, heq'])
      · exact .inr (behind_binary op (by rwa [heq]))
    · exact .inr (behind_binary op (rhs.behind_lower hbehind))

/-- `s.lower` does the same under `preserve` as under `zeroInit`, or is `Behind` it. -/
theorem Statement.eq_or_behind (s : Statement Operator) (d : Draft) :
    s.lower .preserve d = s.lower .zeroInit d ∨
    Behind (s.lower .preserve d) (s.lower .zeroInit d) := by
  cases s with
  | printString text => exact .inl rfl
  | printNumber value =>
    rcases value.eq_or_behind d with heq | hbehind
    · exact .inl (by rw [Statement.lower, Statement.lower, heq])
    · exact .inr (hbehind.printNumber (value.sameTy_lower _ _ _ _))
  | assign name value =>
    rcases value.eq_or_behind d with heq | hbehind
    · exact .inl (by rw [Statement.lower, Statement.lower, heq])
    · exact .inr (hbehind.write name (value.sameTy_lower _ _ _ _))

/-- `script.lower` does the same under `preserve` as under `zeroInit`, or is `Behind` it. -/
theorem Script.eq_or_behind (script : Script Operator) (d : Draft) :
    script.lower .preserve d = script.lower .zeroInit d ∨
      Behind (script.lower .preserve d) (script.lower .zeroInit d) := by
  induction script generalizing d with
  | nil => exact .inl rfl
  | cons s script ih =>
    rw [Script.lower_cons, Script.lower_cons]
    rcases s.eq_or_behind d with heq | hbehind
    · rw [heq]
      exact ih _
    · exact .inr (Script.behind_lower script hbehind)

/-- Programs under `zeroInit` and `preserve` that have the same text are the same. -/
theorem Script.lower_eq_of_text_eq (script : Script Operator) {name : String}
    (h : ((script.lower .preserve {}).finish.module name).text =
      ((script.lower .zeroInit {}).finish.module name).text) :
    script.lower .preserve {} = script.lower .zeroInit {} := by
  rcases script.eq_or_behind {} with heq | hbehind
  · exact heq
  · -- The text under `zeroInit` would have more lines.
    have hfinish := hbehind.push (.ret (some (.i32 0))) (.ret (some (.i32 0))) .void none
    exact absurd (size_eq_of_text_eq hfinish.constants hfinish.declaresPrintf h)
      (Nat.ne_of_lt hfinish.size)

/-! ### Code under `preserve` fails -/

/-- A declared variable keeps its slot. -/
theorem Draft.Grows.slot {d d' : Draft} (h : Grows d d') {name : String}
    (hname : d.isDeclared name = true) : d'.slot name = d.slot name := by
  obtain ⟨v, hv⟩ := Option.isSome_iff_exists.mp hname
  obtain ⟨v', hv', hslot, -⟩ := h.lookup? hv
  rw [slot_of_lookup? hv, slot_of_lookup? hv', hslot]

/-- `d.read` leaves the variable in its slot. -/
theorem Draft.slot_read (d : Draft) (policy : ReadPolicy) (name : String) :
    (d.read policy name).2.slot name = d.slot name := by
  have hdeclared : (d.declare name).isDeclared name = true := by
    rw [isDeclared_declare]
    simp
  have hgrows : Grows (d.declare name) (d.read policy name).2 :=
    .push (.load .double (.inst _)) .double (some name) rfl (grows_prepare _ policy name)
  rw [hgrows.slot hdeclared, slot_declare_self]

section

variable {m : Module} {b : Body} {d : Draft} {s : Machine} {policy : ReadPolicy}

/-- The code of `e.lower` fails at the first variable that nothing was stored to, whatever code
    comes behind. -/
theorem Expr.exec_eq_error {values : String → Double} {output : String} (e : Expr Operator)
    (h : Reaches m b d s values output) (hpolicy : policy ≠ .zeroInit) {v : String}
    (hv : d.firstUnwritten? e.vars = some v) {d' : Draft}
    (hd' : Grows (e.lower policy d).2 d') :
    d'.exec m b =
      .error (.uninitializedLoad ((b.instructions[d'.slot v]?.bind (·.name)).getD "")) := by
  induction e generalizing d s with
  | literal value => simp [Expr.vars, firstUnwritten?] at hv
  | var name =>
    obtain ⟨hw, rfl⟩ := firstUnwritten?_singleton hv
    have hdeclared : (d.read policy name).2.isDeclared name = true := by
      rw [isDeclared_read]
      simp
    -- The variable has its slot at the latest when it is read, and keeps it.
    rw [hd'.exec_eq_error (h.read_eq_error hpolicy hw), hd'.slot hdeclared, lower_var, slot_read]
  | negate operand ih =>
    rw [lower_negate] at hd'
    exact ih h hv ((grows_apply _ _ _ _).trans hd')
  | binary op lhs rhs ihl ihr =>
    rw [lower_binary] at hd'
    have hright := (grows_apply _ _ _ _).trans hd'
    rcases firstUnwritten?_append hv with hl | ⟨hwritten, hr⟩
    · exact ihl h hl ((rhs.grows_lower policy _).trans hright)
    · obtain ⟨s₁, h₁, -⟩ := lhs.reaches_lower h fun _ => hwritten
      refine ihr h₁ ?_ hright
      -- The left operand writes no variable.
      rw [firstUnwritten?_congr (lhs.isWritten_lower hpolicy d), hr]

/-- The code of `st.lower` fails at the first variable that nothing was stored to. -/
theorem Statement.exec_eq_error {values : String → Double} {output : String}
    (st : Statement Operator) (h : Reaches m b d s values output) (hpolicy : policy ≠ .zeroInit)
    {v : String} (hv : d.firstUnwritten? st.reads = some v) {d' : Draft}
    (hd' : Grows (st.lower policy d) d') :
    d'.exec m b =
      .error (.uninitializedLoad ((b.instructions[d'.slot v]?.bind (·.name)).getD "")) := by
  cases st with
  | printString text => simp [Statement.reads, firstUnwritten?] at hv
  | printNumber value =>
    exact value.exec_eq_error h hpolicy hv ((grows_printNumber _ _).trans hd')
  | assign name value => exact value.exec_eq_error h hpolicy hv ((grows_write _ _ _).trans hd')

/-- The code of `script.lower` fails at the first read with no assignment before it. -/
theorem Script.exec_eq_error (script : Script Operator) {p : ScriptState}
    (h : Reaches m b d s p.values p.output) (hpolicy : policy ≠ .zeroInit) {assigned : List String}
    (hd : d.Assigned assigned) {v : String}
    (hv : firstUnassigned? assigned script.accesses = some v)
    (hwithin : (script.lower policy d).Within m b) :
    (script.lower policy d).exec m b = .error (.uninitializedLoad
      ((b.instructions[(script.lower policy d).slot v]?.bind (·.name)).getD "")) := by
  induction script generalizing d s p assigned with
  | nil => simp [Script.accesses, firstUnassigned?] at hv
  | cons st script ih =>
    rcases hd.firstUnassigned?_cases hv with hs | ⟨hwritten, hrest⟩
    · exact st.exec_eq_error h hpolicy hs (Script.grows_lower policy script _)
    · obtain ⟨s₁, h₁⟩ := st.reaches_lower h (fun _ => hwritten)
        (hwithin.of_grows (Script.grows_lower policy script _))
      exact ih h₁ (st.assigned_lower hpolicy hd) hrest hwithin

end

/-- This read is one of a variable of the script. -/
theorem Script.mem_vars_of_eq_some {script : Script Operator} {assigned : List String} {v : String}
    (hv : firstUnassigned? assigned (Script.accesses script) = some v) : v ∈ script.vars := by
  obtain ⟨before, after, haccesses, -⟩ := firstUnassigned?_eq_some hv
  rw [Script.vars, haccesses]
  simp [Access.name]

/-- The program of `script.lower .preserve` fails at the first read with no assignment before it,
    and names the slot of the variable. -/
theorem Script.run_eq_error (script : Script Operator) {v : String}
    (hv : firstUnassigned? [] (Script.accesses script) = some v) (name : String) :
    ((script.lower .preserve {}).finish.module name).run "main" =
      .error (.uninitializedLoad ((script.lower .preserve {}).slotName v)) := by
  have hvalid := script.valid_lower .preserve
  have hwithin := (script.lower .preserve {}).within_finish name
  have hexec :=
    script.exec_eq_error (p := {}) (reaches_empty _ _) (by decide) assigned_empty hv hwithin
  -- The error names the slot as it is printed, which is the name of the variable made unique.
  obtain ⟨u, hu, rfl⟩ := (script.exists_var_iff .preserve v).mpr (mem_vars_of_eq_some hv)
  obtain ⟨inst, hinst, hname⟩ := hvalid.getElem?_slot hu
  rw [slot_of_lookup? (hvalid.lookup?_eq hu), hwithin.instructions hinst, Option.bind_some,
    hname] at hexec
  rw [hvalid.run_finish, hexec]
  rfl

/-- The policies agree. A source that compiles under `zeroInit` also compiles under `preserve`. It
    compiles under `error` iff the program under `preserve` runs to its end, and iff that program
    has the same text as the one under `zeroInit`; then all three texts are the same. Otherwise
    there is a first variable that is read with no assignment before it: the compilation under
    `error` fails at this variable, and the program under `preserve` fails when it loads from its
    slot. -/
theorem policies_agree {source name : String} {zeroed : Module}
    (h : compile source ⟨name, .zeroInit⟩ = .ok zeroed) :
    ∃ script preserved, ParsesTo source script ∧
      (∀ script', ParsesTo source script' → script' = script) ∧
      compile source ⟨name, .preserve⟩ = .ok preserved ∧
      ((∃ m, compile source ⟨name, .error⟩ = .ok m) ↔ ∃ x, preserved.run "main" = .ok x) ∧
      ((∃ x, preserved.run "main" = .ok x) ↔ preserved.text = zeroed.text) ∧
      (preserved.text = zeroed.text →
        ∃ m, compile source ⟨name, .error⟩ = .ok m ∧ m.text = zeroed.text) ∧
      (preserved.text ≠ zeroed.text →
        ∃ v span, IsFirstUnassigned script.accesses v ∧
          compile source ⟨name, .error⟩ = .error (.emission (.uninitializedRead v) span) ∧
          preserved.run "main" =
            .error (.uninitializedLoad ((script.lower .preserve {}).slotName v)) ∧
          ∀ u ∈ script.vars,
            (script.lower .preserve {}).slotName u =
              (script.lower .preserve {}).slotName v → u = v) := by
  obtain ⟨script, hscript⟩ := parsesTo_of_compile h
  rw [hscript.compile_eq_ok (by simp)] at h
  obtain rfl := Except.ok.inj h
  refine ⟨script, _, hscript, fun script' h' => h'.unique hscript,
    hscript.compile_eq_ok (by simp), ?_⟩
  cases hv : firstUnassigned? [] script.accesses with
  | none =>
    -- Every read is assigned: all three programs have the same code.
    have hlower := script.lower_eq (admits_empty hv)
    have hcompile : compile source ⟨name, .error⟩ =
        .ok ((script.lower .error {}).finish.module name) := hscript.compile_eq_ok fun _ => hv
    obtain ⟨s, -, hrun⟩ := script.run_program .preserve (fun _ => hv) name
    have htext : ((script.lower .preserve {}).finish.module name).text =
        ((script.lower .zeroInit {}).finish.module name).text := by rw [hlower .zeroInit]
    refine ⟨⟨fun _ => ⟨_, hrun⟩, fun _ => ⟨_, hcompile⟩⟩, ⟨fun _ => htext, fun _ => ⟨_, hrun⟩⟩,
      fun _ => ⟨_, hcompile, ?_⟩, fun hne => absurd htext hne⟩
    show ((script.lower .error {}).finish.module name).text =
      ((script.lower .zeroInit {}).finish.module name).text
    rw [hlower .error, hlower .zeroInit]
  | some v =>
    have hrun := script.run_eq_error hv name
    have hfails : ∀ x, ((script.lower .preserve {}).finish.module name).run "main" ≠ .ok x := by
      rw [hrun]
      exact fun x hx => by cases hx
    have hrefused : ∃ span, compile source ⟨name, .error⟩ =
        .error (.emission (.uninitializedRead v) span) := hscript.compile_eq_error rfl hv
    obtain ⟨span, hcompile⟩ := hrefused
    -- Programs with the same text would be the same, and the one under `zeroInit` does not fail.
    have htext : ((script.lower .preserve {}).finish.module name).text ≠
        ((script.lower .zeroInit {}).finish.module name).text := by
      intro htext
      obtain ⟨s, -, hzero⟩ := script.run_program .zeroInit (by simp) name
      rw [← script.lower_eq_of_text_eq htext] at hzero
      exact hfails _ hzero
    refine ⟨⟨?_, fun ⟨x, hx⟩ => absurd hx (hfails x)⟩, ⟨fun ⟨x, hx⟩ => absurd hx (hfails x),
      fun heq => absurd heq htext⟩, fun heq => absurd heq htext, fun _ => ⟨v, span,
      isFirstUnassigned_of_eq_some hv, hcompile, hrun, fun u hu heq => ?_⟩⟩
    · rintro ⟨m, hm⟩
      rw [hcompile] at hm
      cases hm
    · exact script.slotName_injOn .preserve hu (Script.mem_vars_of_eq_some hv) heq

/-- The sample reads `x`, which nothing is assigned to: it is refused under `error`, and under
    `preserve` the load from the slot of `x` fails. In `x = 1; print x` every read has its
    assignment: the program under `preserve` runs to its end, and it is the one under `error` and
    under `zeroInit`. -/
theorem policies_agree_sample :
    (∃ zeroed preserved span, compile sampleSource ⟨"top", .zeroInit⟩ = .ok zeroed ∧
      compile sampleSource ⟨"top", .preserve⟩ = .ok preserved ∧ preserved.text ≠ zeroed.text ∧
      compile sampleSource ⟨"top", .error⟩ = .error (.emission (.uninitializedRead "x") span) ∧
      preserved.run "main" = .error (.uninitializedLoad "x")) ∧
    ∃ zeroed preserved m x, compile "x = 1; print x" ⟨"top", .zeroInit⟩ = .ok zeroed ∧
      compile "x = 1; print x" ⟨"top", .preserve⟩ = .ok preserved ∧ preserved.run "main" = .ok x ∧
      compile "x = 1; print x" ⟨"top", .error⟩ = .ok m ∧ preserved.text = zeroed.text ∧
      m.text = zeroed.text := by
  constructor
  · have hzeroed : compile sampleSource ⟨"top", .zeroInit⟩ = .ok _ :=
      parsesTo_sample.compile_eq_ok (by simp)
    obtain ⟨script, preserved, hscript, -, hpreserved, -, -, hsame, hdiffer⟩ :=
      policies_agree hzeroed
    obtain rfl := hscript.unique parsesTo_sample
    have hfirst : firstUnassigned? [] sampleScript.accesses = some "x" := by decide
    obtain ⟨span, hrefused⟩ : ∃ span, compile sampleSource ⟨"top", .error⟩ =
        .error (.emission (.uninitializedRead "x") span) :=
          parsesTo_sample.compile_eq_error rfl hfirst
    -- Equal texts would mean that the third policy accepts the script.
    have htext : preserved.text ≠ _ := fun htext => by
      obtain ⟨m, hm, -⟩ := hsame htext
      cases hrefused.symm.trans hm
    obtain ⟨v, span', -, hrefused', hrun, -⟩ := hdiffer htext
    obtain rfl : v = "x" := by
      rw [hrefused] at hrefused'
      cases hrefused'
      rfl
    refine ⟨_, preserved, span, hzeroed, hpreserved, htext, hrefused, hrun.trans ?_⟩
    decide +kernel
  · -- The read comes behind the assignment, so all three policies give one text.
    have hzeroed : compile "x = 1; print x" ⟨"top", .zeroInit⟩ = .ok _ :=
      parsesTo_assign_print.compile_eq_ok (by simp)
    have hassigned : compile "x = 1; print x" ⟨"top", .error⟩ = .ok _ :=
      parsesTo_assign_print.compile_eq_ok fun _ => by decide
    obtain ⟨-, preserved, -, -, hpreserved, hruns, htexts, hsame, -⟩ := policies_agree hzeroed
    obtain ⟨x, hx⟩ := hruns.mp ⟨_, hassigned⟩
    have htext := htexts.mp ⟨x, hx⟩
    obtain ⟨m, hm, hmtext⟩ := hsame htext
    exact ⟨_, preserved, m, x, hzeroed, hpreserved, hx, hm, htext, hmtext⟩

end Straightline
