import Mathlib.Data.List.Dedup
import Straightline.Proofs.Execution.Running
import Straightline.Proofs.Script.Lowering

/-!
# The meaning of scripts

What a script does, said by recursion over its tree, and the same of the program it is compiled to.

* `Expr.eval`, `Statement.eval` and `Script.eval` evaluate trees.
* `Script.reaches_lower`: the code of a script does what the script does.
* `run_compile`: a script that compiles under `zeroInit` runs as its tree evaluates.
-/

namespace Straightline

open Draft

/-! ### Evaluating trees -/

/-- The number that an expression denotes, given the values of the variables. A minus sign subtracts
    from zero. -/
def Expr.eval (values : String → Double) : Expr Operator → Double
  | literal value => value
  | var name => values name
  | negate operand => Double.Arithmetic.sub.eval Double.zero (operand.eval values)
  | binary op lhs rhs => op.eval (lhs.eval values) (rhs.eval values)

/-- What a script has done so far. At first every variable is zero. -/
structure ScriptState where
  values : String → Double := fun _ => Double.zero
  output : String := ""

/-- What a statement does. -/
def Statement.eval : Statement Operator → ScriptState → ScriptState
  | printString text, p => { p with output := p.output ++ (text ++ "\n") }
  | printNumber value, p =>
    { p with output := p.output ++ ((value.eval p.values).toFixed 6 ++ "\n") }
  | assign name value, p =>
    { p with values := fun other => if other = name then value.eval p.values else p.values other }

/-- What a script does, statement by statement. -/
def Script.eval (script : Script Operator) (p : ScriptState) : ScriptState :=
  script.foldl (fun p s => s.eval p) p

/-! ### Code computes what trees denote -/

section

variable {m : Module} {b : Body} {d : Draft} {s : Machine} {policy : ReadPolicy}

/-- The code of `e.lower` computes `e.eval values` and changes no variable. -/
theorem Expr.reaches_lower {values : String → Double} {output : String} (e : Expr Operator)
    (h : Reaches m b d s values output)
    (hread : policy ≠ .zeroInit → ∀ name ∈ e.vars, d.isWritten name = true) :
    ∃ s', Reaches m b (e.lower policy d).2 s' values output ∧
      (e.lower policy d).2.Carries s' (e.lower policy d).1 (e.eval values) := by
  induction e generalizing d s with
  | literal value => exact ⟨s, h, carries_double d s value⟩
  | var name => exact h.read fun hpolicy => hread hpolicy name (by simp [Expr.vars])
  | negate operand ih =>
    obtain ⟨s₁, h₁, hx⟩ := ih h hread
    rw [lower_negate]
    exact h₁.apply (.arithmetic .sub) (carries_double _ s₁ _) hx
  | binary op lhs rhs ihl ihr =>
    obtain ⟨s₁, h₁, hx⟩ := ihl h fun hpolicy name hn => hread hpolicy name (by simp [Expr.vars, hn])
    have hright : policy ≠ .zeroInit → ∀ name ∈ rhs.vars,
        (lhs.lower policy d).2.isWritten name = true := fun hpolicy name hn =>
      (lhs.grows_lower policy d).isWritten (hread hpolicy name (by simp [Expr.vars, hn]))
    obtain ⟨s₂, h₂, hy⟩ := ihr h₁ hright
    rw [lower_binary]
    -- The left operand keeps its value while the right one is computed.
    exact h₂.apply op (hx.grows (rhs.grows_lower policy _) h₂.valid h₁.exec h₂.exec) hy

/-- The code of `st.lower` does what `st.eval` says. -/
theorem Statement.reaches_lower (st : Statement Operator) {p : ScriptState}
    (h : Reaches m b d s p.values p.output)
    (hread : policy ≠ .zeroInit → ∀ name ∈ st.reads, d.isWritten name = true)
    (hd : (st.lower policy d).Within m b) :
    ∃ s', Reaches m b (st.lower policy d) s' (st.eval p).values (st.eval p).output := by
  cases st with
  | printString text => exact h.printString hd
  | printNumber value =>
    obtain ⟨s₁, h₁, hx⟩ := value.reaches_lower h hread
    exact h₁.printNumber hd hx
  | assign name value =>
    obtain ⟨s₁, h₁, hx⟩ := value.reaches_lower h hread
    exact h₁.write name hx

/-- The code of `script.lower` does what `script.eval` says. -/
theorem Script.reaches_lower (script : Script Operator) {p : ScriptState}
    (h : Reaches m b d s p.values p.output)
    (hread : policy ≠ .zeroInit → d.Admits (Script.accesses script))
    (hd : (script.lower policy d).Within m b) :
    ∃ s', Reaches m b (script.lower policy d) s' (script.eval p).values (script.eval p).output := by
  induction script generalizing d s p with
  | nil => exact ⟨s, h⟩
  | cons st script ih =>
    obtain ⟨s₁, h₁⟩ := st.reaches_lower h (fun hpolicy name hn => (hread hpolicy).isWritten hn)
      (hd.of_grows (Script.grows_lower policy script _))
    exact ih h₁ (fun hpolicy => (hread hpolicy).lower hpolicy) hd

end

/-! ### Variables of the code -/

/-- `e.lower` declares the variables of `e.vars`. -/
theorem Expr.isDeclared_lower (policy : ReadPolicy) (e : Expr Operator) (d : Draft)
    (name : String) :
    (e.lower policy d).2.isDeclared name = true ↔ name ∈ e.vars ∨ d.isDeclared name = true := by
  induction e generalizing d with
  | literal value => simp [Expr.vars]
  | var other => simp [isDeclared_read, Expr.vars]
  | negate operand ih =>
    rw [lower_negate, isDeclared_congr (vars_apply _ _ _ _), ih]
    rfl
  | binary op lhs rhs ihl ihr =>
    rw [lower_binary, isDeclared_congr (vars_apply _ _ _ _), ihr, ihl, Expr.vars, List.mem_append]
    tauto

/-- `s.lower` declares the variables of `s.accesses`. -/
theorem Statement.isDeclared_lower (policy : ReadPolicy) (s : Statement Operator) (d : Draft)
    (name : String) :
    (s.lower policy d).isDeclared name = true ↔
      name ∈ s.accesses.map Access.name ∨ d.isDeclared name = true := by
  have haccesses : name ∈ s.accesses.map Access.name ↔ name ∈ s.reads ∨ name ∈ s.targets := by
    simp [Statement.accesses, Access.name]
  rw [haccesses]
  cases s with
  -- Printing declares nothing, and an assignment its target behind the names that it reads.
  | printString text =>
    rw [Statement.lower, isDeclared_congr (vars_printString _ _)]
    simp [Statement.reads, Statement.targets]
  | printNumber value =>
    rw [Statement.lower, isDeclared_congr (vars_printNumber _ _), value.isDeclared_lower]
    simp [Statement.reads, Statement.targets]
  | assign target value =>
    rw [Statement.lower, isDeclared_write, Bool.or_eq_true, decide_eq_true_iff,
      value.isDeclared_lower, Statement.reads, Statement.targets, List.mem_singleton]
    tauto

/-- `script.lower` declares the variables of `script.vars`. -/
theorem Script.isDeclared_lower (policy : ReadPolicy) (script : Script Operator) (d : Draft)
    (name : String) :
    (script.lower policy d).isDeclared name = true ↔ name ∈ script.vars ∨
      d.isDeclared name = true := by
  induction script generalizing d with
  | nil => simp [Script.vars, Script.accesses]
  | cons s script ih =>
    rw [Script.lower_cons, ih, s.isDeclared_lower, Script.vars, Script.vars, Script.accesses,
      Script.accesses, List.flatMap_cons, List.map_append, List.mem_append]
    tauto

/-- `d.AllWritten`: every variable that is declared is written. -/
def Draft.AllWritten (d : Draft) : Prop := ∀ name, d.isWritten name = d.isDeclared name

/-- `AllWritten` is about the variables only. -/
theorem Draft.AllWritten.congr {d d' : Draft} (h : d.AllWritten) (hvars : d'.vars = d.vars) :
    d'.AllWritten := by
  intro name
  rw [isWritten_congr hvars, isDeclared_congr hvars, h name]

/-- `d.write` keeps `AllWritten`. -/
theorem Draft.AllWritten.write {d : Draft} (h : d.AllWritten) (name : String) (x : Operand) :
    (d.write name x).AllWritten := by
  intro other
  rw [isWritten_write, isDeclared_write, h other]

/-- Under `zeroInit`, `e.lower` keeps `AllWritten`. -/
theorem Expr.allWritten_lower (e : Expr Operator) {d : Draft} (h : d.AllWritten) :
    (e.lower .zeroInit d).2.AllWritten := by
  induction e generalizing d with
  | literal value => exact h
  | var name =>
    intro other
    -- A read declares the name and stores a zero under it at once.
    rw [lower_var, isWritten_read_zeroInit, isDeclared_read, h other]
  | negate operand ih =>
    rw [lower_negate]
    exact (ih h).congr (vars_apply _ _ _ _)
  | binary op lhs rhs ihl ihr =>
    rw [lower_binary]
    exact (ihr (ihl h)).congr (vars_apply _ _ _ _)

/-- Under `zeroInit`, `s.lower` keeps `AllWritten`. -/
theorem Statement.allWritten_lower (s : Statement Operator) {d : Draft} (h : d.AllWritten) :
    (s.lower .zeroInit d).AllWritten := by
  cases s with
  | printString text => exact h.congr (vars_printString d text)
  | printNumber value => exact (value.allWritten_lower h).congr (vars_printNumber _ _)
  | assign name value => exact (value.allWritten_lower h).write name _

/-- Under `zeroInit`, `script.lower` keeps `AllWritten`. -/
theorem Script.allWritten_lower (script : Script Operator) {d : Draft} (h : d.AllWritten) :
    (script.lower .zeroInit d).AllWritten := by
  induction script generalizing d with
  | nil => exact h
  | cons s script ih => exact ih (s.allWritten_lower h)

/-! ### Programs -/

/-- `script.lower` is a valid draft. -/
theorem Script.valid_lower (policy : ReadPolicy) (script : Script Operator) :
    (script.lower policy {}).Valid := (Script.grows_lower policy script {}).valid valid_empty

/-- No two instructions of `script.lower` have one name. -/
theorem Script.uniqueNames_lower (policy : ReadPolicy) (script : Script Operator) :
    (script.lower policy {}).UniqueNames :=
  (Script.grows_lower policy script {}).uniqueNames uniqueNames_empty

/-- The variables of `script.lower` are those of `script.vars`. -/
theorem Script.exists_var_iff (policy : ReadPolicy) (script : Script Operator) (name : String) :
    (∃ v ∈ (script.lower policy {}).vars, v.name = name) ↔ name ∈ script.vars := by
  have hdeclared : (script.lower policy {}).isDeclared name = true ↔ name ∈ script.vars :=
    (script.isDeclared_lower policy {} name).trans (by simp [isDeclared, lookup?])
  rw [← hdeclared, isDeclared, Option.isSome_iff_exists]
  constructor
  · rintro ⟨v, hv, rfl⟩
    exact ⟨v, (script.valid_lower policy).lookup?_eq hv⟩
  · rintro ⟨v, hv⟩
    exact ⟨v, mem_of_lookup? hv, name_of_lookup? hv⟩

/-- Under `zeroInit`, all of them are written. -/
theorem Script.written_lower (script : Script Operator) {v : Variable}
    (hv : v ∈ (script.lower .zeroInit {}).vars) : v.written = true := by
  have hlookup := (script.valid_lower .zeroInit).lookup?_eq hv
  have hempty : Draft.AllWritten {} := fun name => by simp [isWritten, isDeclared, lookup?]
  rw [← isWritten_of_lookup? hlookup, script.allWritten_lower hempty, isDeclared, hlookup]
  rfl

/-- The program of `script.lower` runs to its end as `script.eval` says, if the policy is `zeroInit`
    or every read has its assignment. -/
theorem Script.run_program (policy : ReadPolicy) (script : Script Operator)
    (hread : policy ≠ .zeroInit → firstUnassigned? [] (Script.accesses script) = none)
    (name : String) :
    ∃ s, Reaches ((script.lower policy {}).finish.module name) (script.lower policy {}).finish.body
        (script.lower policy {}) s (script.eval {}).values (script.eval {}).output ∧
      ((script.lower policy {}).finish.module name).run "main" =
        .ok ⟨0, s.output, s.slots (script.lower policy {}).finish.body⟩ := by
  obtain ⟨s, hs⟩ := script.reaches_lower (p := {}) (reaches_empty _ _)
    (fun hpolicy => admits_empty (hread hpolicy)) (within_finish _ name)
  refine ⟨s, hs, ?_⟩
  rw [(script.valid_lower policy).run_finish, hs.exec]
  rfl

/-- Different variables of a script have different slots. -/
theorem Script.slotName_injOn (policy : ReadPolicy) (script : Script Operator) {u v : String}
    (hu : u ∈ script.vars) (hv : v ∈ script.vars)
    (h : (script.lower policy {}).slotName u = (script.lower policy {}).slotName v) : u = v := by
  obtain ⟨x, hx, rfl⟩ := (script.exists_var_iff policy u).mpr hu
  obtain ⟨y, hy, rfl⟩ := (script.exists_var_iff policy v).mpr hv
  rw [(script.valid_lower policy).eq_of_slotName_eq (script.uniqueNames_lower policy) hx hy h]

/-- At the end there is one slot for each variable of the script, with its value. -/
theorem Script.slots_perm (script : Script Operator) {m : Module} {b : Body} {s : Machine}
    {values : String → Double} {output : String}
    (hs : Reaches m b (script.lower .zeroInit {}) s values output)
    (hd : (script.lower .zeroInit {}).Within m b) :
    (s.slots b).Perm (script.vars.dedup.map fun v =>
      ((script.lower .zeroInit {}).slotName v, .double (values v))) := by
  have hslots : (s.slots b).Nodup :=
    .of_map _ (hs.nodup_slots hd (script.uniqueNames_lower .zeroInit))
  have hvars : (script.vars.dedup.map fun v =>
      ((script.lower .zeroInit {}).slotName v, Value.double (values v))).Nodup := by
    refine (List.nodup_dedup _).map_on fun u hu v hv heq => ?_
    exact script.slotName_injOn .zeroInit (List.mem_dedup.mp hu) (List.mem_dedup.mp hv)
      (congrArg Prod.fst heq)
  -- Neither list has an entry twice, so it is enough that they have the same entries.
  refine (List.perm_ext_iff_of_nodup hslots hvars).mpr fun entry => ?_
  rw [hs.mem_slots hd, List.mem_map]
  constructor
  · rintro ⟨v, hv, -, rfl⟩
    exact ⟨v.name, List.mem_dedup.mpr ((script.exists_var_iff .zeroInit _).mp ⟨v, hv, rfl⟩), rfl⟩
  · rintro ⟨name, hname, rfl⟩
    obtain ⟨v, hv, rfl⟩ := (script.exists_var_iff .zeroInit name).mpr (List.mem_dedup.mp hname)
    exact ⟨v, hv, script.written_lower hv, rfl⟩

/-- A script that compiles under `zeroInit` runs to its end and does what its tree says: the exit
    code is zero, it prints what the tree prints, and the slots at the end are those of the
    variables of the script, one for each, with their last values. -/
theorem run_compile {source name : String} {m : Module}
    (h : compile source ⟨name, .zeroInit⟩ = .ok m) :
    ∃ script, ParsesTo source script ∧ (∀ script', ParsesTo source script' → script' = script) ∧
      ∃ execution, m.run "main" = .ok execution ∧ execution.exitCode = 0 ∧
        execution.stdout = (script.eval {}).output ∧
        execution.slots.Perm (script.vars.dedup.map fun v =>
          ((script.lower .zeroInit {}).slotName v, .double ((script.eval {}).values v))) ∧
        ∀ u ∈ script.vars, ∀ v ∈ script.vars,
          (script.lower .zeroInit {}).slotName u =
            (script.lower .zeroInit {}).slotName v → u = v := by
  obtain ⟨script, hscript⟩ := parsesTo_of_compile h
  rw [hscript.compile_eq_ok (by simp)] at h
  obtain rfl := Except.ok.inj h
  have hd := (script.lower .zeroInit {}).within_finish name
  obtain ⟨s, hs, hrun⟩ := script.run_program .zeroInit (by simp) name
  exact ⟨script, hscript, fun script' h' => h'.unique hscript, _, hrun, rfl, hs.output,
    script.slots_perm hs hd, fun u hu v hv => script.slotName_injOn .zeroInit hu hv⟩

theorem run_compile_sample :
    ∃ m, compile sampleSource ⟨"top", .zeroInit⟩ = .ok m ∧
      ∃ script, ParsesTo sampleSource script ∧
        (∀ script', ParsesTo sampleSource script' → script' = script) ∧
        ∃ execution, m.run "main" = .ok execution ∧ execution.exitCode = 0 ∧
          execution.stdout = (script.eval {}).output ∧
          execution.slots.Perm (script.vars.dedup.map fun v =>
            ((script.lower .zeroInit {}).slotName v, .double ((script.eval {}).values v))) ∧
          ∀ u ∈ script.vars, ∀ v ∈ script.vars,
            (script.lower .zeroInit {}).slotName u =
              (script.lower .zeroInit {}).slotName v → u = v := by
  obtain ⟨m, h⟩ : ∃ m, compile sampleSource ⟨"top", .zeroInit⟩ = .ok m :=
    ⟨_, parsesTo_sample.compile_eq_ok (by simp)⟩
  exact ⟨m, h, run_compile h⟩

end Straightline
