import Straightline.Proofs.Emission.Agreement
import Straightline.Proofs.Script.Reading
import Straightline.Script.Compile

/-!
# Lowering trees

A script is compiled in a single pass, without a tree. Here its tree is turned into a draft by
recursion over the tree, in post-order, and the single pass is shown to come to the same.

* `Expr.lower`, `Statement.lower` and `Script.lower` are the code of a tree.
* `Script.leads_steps` and `Script.refuses_steps` say when the steps of a script make this code and
  when they fail, and `Script.computes_or_fails` that nothing else can be compiled.
* `compile_eq_lower`: the program of a source is the code of its tree.
-/

namespace Straightline

open Draft

/-! ### Lowering a tree -/

/-- The code of an expression: the left operand, the right operand, and then the operator. A minus
    sign subtracts from zero. The result is the operand that holds the value. -/
def Expr.lower (policy : ReadPolicy) : Expr Operator → Draft → Operand × Draft
  | literal value, d => (.double value, d)
  | var name, d => d.read policy name
  | negate operand, d =>
    let (x, d) := operand.lower policy d
    d.apply (.arithmetic .sub) (.double Double.zero) x
  | binary op lhs rhs, d =>
    let (x, d) := lhs.lower policy d
    let (y, d) := rhs.lower policy d
    d.apply op x y

section

variable (policy : ReadPolicy) (d : Draft)

@[simp] theorem Expr.lower_literal (value : Double) :
    (literal value).lower policy d = (.double value, d) := rfl

@[simp] theorem Expr.lower_var (name : String) :
    (var name).lower policy d = d.read policy name := rfl

@[simp] theorem Expr.lower_negate (e : Expr Operator) :
    (negate e).lower policy d =
      (e.lower policy d).2.apply (.arithmetic .sub) (.double Double.zero) (e.lower policy d).1 :=
  rfl

@[simp] theorem Expr.lower_binary (op : Operator) (l r : Expr Operator) :
    (binary op l r).lower policy d =
      (r.lower policy (l.lower policy d).2).2.apply op (l.lower policy d).1
        (r.lower policy (l.lower policy d).2).1 := rfl

end

/-- The code of a statement: the expression, and then what is done with its value. -/
def Statement.lower (policy : ReadPolicy) : Statement Operator → Draft → Draft
  | printString text, d => d.printString text
  | printNumber value, d =>
    let (x, d) := value.lower policy d
    d.printNumber x
  | assign name value, d =>
    let (x, d) := value.lower policy d
    d.write name x

/-- The code of a script, statement by statement. -/
def Script.lower (policy : ReadPolicy) (script : Script Operator) (d : Draft) : Draft :=
  script.foldl (fun d s => s.lower policy d) d

@[simp] theorem Script.lower_nil (policy : ReadPolicy) (d : Draft) :
    Script.lower policy [] d = d := rfl

@[simp] theorem Script.lower_cons (policy : ReadPolicy) (s : Statement Operator)
    (script : Script Operator) (d : Draft) :
    Script.lower policy (s :: script) d = Script.lower policy script (s.lower policy d) := rfl

/-- The operands of `>` come first, and its result is widened when it is stored. -/
example : (Script.lower .zeroInit sampleScript {}).instructions.toList.map (·.kind) =
    [.alloca .double, .store (.double ⟨0⟩) (.inst 0), .load .double (.inst 0),
     .binary .sub (.double ⟨0⟩) (.inst 2),
     .compare .greater (.double ⟨0x4000000000000000⟩) (.inst 3),
     .alloca .double, .widen (.inst 4), .store (.inst 6) (.inst 5),
     .load .double (.inst 5), .load .double (.inst 0), .binary .add (.inst 8) (.inst 9),
     .binary .sub (.double ⟨0⟩) (.inst 10), .binary .mul (.inst 11) (.double ⟨0xC008000000000000⟩),
     .call 1 [.global 0, .inst 12], .call 1 [.global 2, .global 1]] := by
  decide

/-- The type of the value of an expression: only a comparison is no double. -/
def Expr.ty : Expr Operator → Ty
  | literal _ => .double
  | var _ => .double
  | negate _ => .double
  | binary op _ _ => op.ty

/-- The result of `d.apply op x y` has the type `op.ty`. -/
theorem Draft.typeOf_apply (d : Draft) (op : Operator) (x y : Operand) :
    (d.apply op x y).2.body.typeOf (d.apply op x y).1 = op.ty := by
  rw [apply_eq, typeOf_next]

/-- The value of `e.lower` has the type `e.ty`, whatever the policy. -/
theorem Expr.typeOf_lower (policy : ReadPolicy) (e : Expr Operator) (d : Draft) :
    (e.lower policy d).2.body.typeOf (e.lower policy d).1 = e.ty := by
  cases e with
  | literal value => rfl
  | var name => exact typeOf_next _ _ _ _
  | negate operand => rw [lower_negate, typeOf_apply, Operator.ty, Expr.ty]
  | binary op lhs rhs => rw [lower_binary, typeOf_apply, Expr.ty]

/-- The value of `e.lower` is a number or the result of a comparison. -/
theorem Expr.isNumber_lower (policy : ReadPolicy) (e : Expr Operator) (d : Draft) :
    (e.lower policy d).2.IsNumber (e.lower policy d).1 := by
  rw [IsNumber, typeOf_lower]
  cases e with
  | literal | var | negate => exact .inl rfl
  | binary op lhs rhs =>
    cases op with
    | arithmetic => exact .inl rfl
    | comparison => exact .inr rfl

/-- `e.lower` only adds to the draft. -/
theorem Expr.grows_lower (policy : ReadPolicy) (e : Expr Operator) (d : Draft) :
    Grows d (e.lower policy d).2 := by
  induction e generalizing d with
  | literal value => exact .refl
  | var name => exact grows_read d policy name
  | negate operand ih =>
    rw [lower_negate]
    exact (ih d).trans (grows_apply _ _ _ _)
  | binary op lhs rhs ihl ihr =>
    rw [lower_binary]
    exact ((ihl d).trans (ihr _)).trans (grows_apply _ _ _ _)

/-- `s.lower` only adds to the draft. -/
theorem Statement.grows_lower (policy : ReadPolicy) (s : Statement Operator) (d : Draft) :
    Grows d (s.lower policy d) := by
  cases s with
  | printString text => exact grows_printString d text
  | printNumber value => exact (value.grows_lower policy d).trans (grows_printNumber _ _)
  | assign name value => exact (value.grows_lower policy d).trans (grows_write _ _ _)

/-- `script.lower` only adds to the draft. -/
theorem Script.grows_lower (policy : ReadPolicy) (script : Script Operator) (d : Draft) :
    Grows d (Script.lower policy script d) := by
  induction script generalizing d with
  | nil => exact .refl
  | cons s script ih => exact (s.grows_lower policy d).trans (ih _)

/-! ### Written variables -/

/-- `e.lower` leaves unwritten variables unwritten, unless the policy stores zero to them. -/
theorem Expr.isWritten_lower {policy : ReadPolicy} (h : policy ≠ .zeroInit) (e : Expr Operator)
    (d : Draft) (name : String) : (e.lower policy d).2.isWritten name = d.isWritten name := by
  induction e generalizing d with
  | literal value => rfl
  | var other => exact isWritten_read h d other name
  | negate operand ih => rw [lower_negate, isWritten_congr (vars_apply _ _ _ _), ih]
  | binary op lhs rhs ihl ihr => rw [lower_binary, isWritten_congr (vars_apply _ _ _ _), ihr, ihl]

/-- `d.Assigned assigned`: the variables that are written are those in the list. -/
def Draft.Assigned (d : Draft) (assigned : List String) : Prop :=
  ∀ name, d.isWritten name = true ↔ name ∈ assigned

/-- In the empty draft nothing is written. -/
theorem Draft.assigned_empty : Draft.Assigned {} [] := by
  intro name
  simp [isWritten, lookup?]

/-- After `s.lower`, the target of the statement is written too. -/
theorem Statement.assigned_lower {policy : ReadPolicy} (h : policy ≠ .zeroInit)
    (s : Statement Operator) {d : Draft} {assigned : List String} (hd : d.Assigned assigned) :
    (s.lower policy d).Assigned (s.targets ++ assigned) := by
  intro name
  cases s with
  | printString text =>
    rw [Statement.lower, isWritten_congr (vars_printString _ _)]
    exact hd name
  | printNumber value =>
    rw [Statement.lower, isWritten_congr (vars_printNumber _ _), value.isWritten_lower h]
    exact hd name
  -- Reading writes nothing under this policy, so only the target is new.
  | assign target value =>
    rw [Statement.lower, isWritten_write, value.isWritten_lower h, Bool.or_eq_true,
      decide_eq_true_iff, hd name, Statement.targets, List.singleton_append, List.mem_cons]

/-- `firstUnwritten?` finds the first name that is not in the list. -/
theorem Draft.Assigned.firstUnwritten?_eq {d : Draft} {assigned : List String}
    (hd : d.Assigned assigned) (names : List String) :
    d.firstUnwritten? names = names.find? (· ∉ assigned) := by
  refine congrFun (congrArg _ (funext fun name => ?_)) _
  rw [decide_eq_decide, ← hd name, Bool.not_eq_true]

/-- The first read without an assignment is one of the next statement, or this only reads written
    variables. -/
theorem Draft.Assigned.firstUnassigned?_cases {d : Draft} {assigned : List String}
    (hd : d.Assigned assigned) {s : Statement Operator} {script : Script Operator} {v : String}
    (hv : firstUnassigned? assigned (Script.accesses (s :: script)) = some v) :
    d.firstUnwritten? s.reads = some v ∨
      (∀ name ∈ s.reads, d.isWritten name = true) ∧
        firstUnassigned? (s.targets ++ assigned) script.accesses = some v := by
  rw [Script.accesses, List.flatMap_cons, firstUnassigned?_statement, ← hd.firstUnwritten?_eq] at hv
  rcases Option.or_eq_some_iff.mp hv with hs | ⟨hnone, hrest⟩
  · exact .inl hs
  · exact .inr ⟨firstUnwritten?_eq_none_iff.mp hnone, hrest⟩

/-- `d.Admits accesses`: with what is written already, nothing is read before an assignment. -/
def Draft.Admits (d : Draft) (accesses : List Access) : Prop :=
  ∃ assigned, d.Assigned assigned ∧ firstUnassigned? assigned accesses = none

/-- The empty draft admits accesses in which every read has its assignment. -/
theorem Draft.admits_empty {accesses : List Access} (h : firstUnassigned? [] accesses = none) :
    Draft.Admits {} accesses := ⟨[], assigned_empty, h⟩

/-- A statement that is admitted reads written variables only. -/
theorem Draft.Admits.isWritten {d : Draft} {s : Statement Operator} {script : Script Operator}
    (h : d.Admits (Script.accesses (s :: script))) {name : String} (hn : name ∈ s.reads) :
    d.isWritten name = true := by
  obtain ⟨assigned, hd, hnone⟩ := h
  rw [Script.accesses, List.flatMap_cons, firstUnassigned?_statement, Option.or_eq_none_iff,
    ← hd.firstUnwritten?_eq] at hnone
  exact firstUnwritten?_eq_none_iff.mp hnone.1 name hn

/-- Behind a statement, the rest is admitted. -/
theorem Draft.Admits.lower {d : Draft} {s : Statement Operator} {script : Script Operator}
    (h : d.Admits (Script.accesses (s :: script))) {policy : ReadPolicy}
    (hpolicy : policy ≠ .zeroInit) :
    (s.lower policy d).Admits (Script.accesses script) := by
  obtain ⟨assigned, hd, hnone⟩ := h
  rw [Script.accesses, List.flatMap_cons, firstUnassigned?_statement,
    Option.or_eq_none_iff] at hnone
  exact ⟨_, s.assigned_lower hpolicy hd, hnone.2⟩

/-! ### Steps make the code of the tree -/

/-- Make steps one after the other, without their places. -/
def Step.emitList (steps : List Step) (stack : List Operand) : Emit (List Operand) :=
  steps.foldlM (fun stack step => step.emit stack) stack

/-- `emitList` on an append is `emitList` on one list after the other. -/
theorem Step.emitList_append (steps rest : List Step) (stack : List Operand) :
    emitList (steps ++ rest) stack = emitList steps stack >>= emitList rest := by
  rw [emitList, List.foldlM_append]
  rfl

/-- `emitList` on one step is `step.emit`. -/
theorem Step.emitList_singleton (step : Step) (stack : List Operand) :
    emitList [step] stack = step.emit stack := by
  rw [emitList, List.foldlM_cons]
  exact bind_pure _

section

variable {α β : Type} {options : Options} {d : Draft}

open Emit Step

/-- The steps of an expression make its code and leave its value on the stack. -/
theorem Expr.leads_steps (e : Expr Operator)
    (hread : options.reads = .error → ∀ name ∈ e.vars, d.isWritten name = true)
    (stack : List Operand) :
    Leads options d (emitList (e.map Operator.symbol).steps stack)
      (· = (e.lower options.reads d).1 :: stack) (e.lower options.reads d).2 := by
  induction e generalizing d stack with
  | literal value => exact leads_pure rfl
  | var name =>
    rw [Expr.map, Expr.steps, emitList_singleton]
    refine (leads_read fun h => hread h name (by simp [Expr.vars])).bind fun x hx => ?_
    subst hx
    exact leads_pure rfl
  | negate operand ih =>
    rw [Expr.map, Expr.steps, emitList_append, lower_negate]
    refine (ih hread stack).bind fun stack' hs => ?_
    subst hs
    rw [emitList_singleton]
    refine (leads_apply (.arithmetic .sub) (.inl rfl) (operand.isNumber_lower _ _)).bind
      fun x hx => ?_
    subst hx
    exact leads_pure rfl
  | binary op lhs rhs ihl ihr =>
    rw [Expr.map, Expr.steps, emitList_append, emitList_append, lower_binary, bind_assoc]
    refine (ihl (fun h name hn => hread h name (by simp [Expr.vars, hn])) stack).bind
      fun stack' hs => ?_
    subst hs
    -- The left operand makes no variable unwritten.
    have hright : options.reads = .error → ∀ name ∈ rhs.vars,
        (lhs.lower options.reads d).2.isWritten name = true := fun h name hn =>
      (lhs.grows_lower _ d).isWritten (hread h name (by simp [Expr.vars, hn]))
    refine (ihr hright _).bind fun stack' hs => ?_
    subst hs
    rw [emitList_singleton]
    have hx := (lhs.isNumber_lower options.reads d).grows (rhs.grows_lower options.reads _)
    refine (leads_binaryOp op hx (rhs.isNumber_lower _ _)).bind fun x hx => ?_
    subst hx
    exact leads_pure rfl

/-- Under the policy `error`, the steps of an expression fail at the first variable that nothing was
    stored to. -/
theorem Expr.refuses_steps (hpolicy : options.reads = .error) (e : Expr Operator) {v : String}
    (hv : d.firstUnwritten? e.vars = some v) (stack : List Operand) :
    Refuses options d (emitList (e.map Operator.symbol).steps stack) (.uninitializedRead v) := by
  induction e generalizing d stack with
  | literal value => simp [Expr.vars, firstUnwritten?] at hv
  | var name =>
    obtain ⟨hw, rfl⟩ := firstUnwritten?_singleton hv
    rw [Expr.map, Expr.steps, emitList_singleton]
    exact (refuses_read hpolicy hw).bind
  | negate operand ih =>
    rw [Expr.map, Expr.steps, emitList_append]
    exact (ih hv stack).bind
  | binary op lhs rhs ihl ihr =>
    rw [Expr.map, Expr.steps, emitList_append, emitList_append, bind_assoc]
    rcases firstUnwritten?_append hv with hl | ⟨hwritten, hr⟩
    · exact (ihl hl stack).bind
    · refine (lhs.leads_steps (fun _ => hwritten) stack).bind_refuses fun stack' _ =>
        (ihr ?_ stack').bind
      -- The left operand writes no variable.
      rw [firstUnwritten?_congr (lhs.isWritten_lower (by simp [hpolicy]) d), hr]

/-- The steps of a statement make its code and leave the stack as it was. -/
theorem Statement.leads_steps (s : Statement Operator)
    (hread : options.reads = .error → ∀ name ∈ s.reads, d.isWritten name = true) :
    Leads options d (emitList (s.map Operator.symbol).steps []) (· = [])
      (s.lower options.reads d) := by
  cases s with
  | printString text =>
    rw [Statement.map, Statement.steps, emitList_singleton]
    exact (leads_printString text).bind fun _ _ => leads_pure rfl
  -- The value is on top of the stack when the last step comes, which takes it.
  | printNumber value =>
    rw [Statement.map, Statement.steps, emitList_append]
    refine (value.leads_steps hread []).bind fun stack hs => ?_
    subst hs
    rw [emitList_singleton]
    exact (leads_printNumber _).bind fun _ _ => leads_pure rfl
  | assign name value =>
    rw [Statement.map, Statement.steps, emitList_append]
    refine (value.leads_steps hread []).bind fun stack hs => ?_
    subst hs
    rw [emitList_singleton]
    exact (leads_write name _).bind fun _ _ => leads_pure rfl

/-- Under the policy `error`, the steps of a statement fail at the first variable that nothing was
    stored to. -/
theorem Statement.refuses_steps (hpolicy : options.reads = .error) (s : Statement Operator)
    {v : String} (hv : d.firstUnwritten? s.reads = some v) :
    Refuses options d (emitList (s.map Operator.symbol).steps []) (.uninitializedRead v) := by
  cases s with
  | printString text => simp [Statement.reads, firstUnwritten?] at hv
  | printNumber value | assign name value =>
    rw [Statement.map, Statement.steps, emitList_append]
    exact (value.refuses_steps hpolicy hv []).bind

/-- The steps of a script make its code. -/
theorem Script.leads_steps (script : Script Operator)
    (hread : options.reads = .error → d.Admits (Script.accesses script)) :
    Leads options d (emitList (Script.steps (script.mapOperators Operator.symbol)) []) (· = [])
      (script.lower options.reads d) := by
  induction script generalizing d with
  | nil => exact leads_pure rfl
  | cons s script ih =>
    rw [Script.mapOperators, List.map_cons, Script.steps_cons, emitList_append]
    refine (s.leads_steps fun hpolicy name hn => (hread hpolicy).isWritten hn).bind
      fun stack hstack => ?_
    subst hstack
    exact ih fun hpolicy => (hread hpolicy).lower (by simp [hpolicy])

/-- Under the policy `error`, the steps of a script fail at the first read without an assignment
    before it. -/
theorem Script.refuses_steps (hpolicy : options.reads = .error) (script : Script Operator)
    {assigned : List String} (hd : d.Assigned assigned) {v : String}
    (hv : firstUnassigned? assigned script.accesses = some v) :
    Refuses options d (emitList (Script.steps (script.mapOperators Operator.symbol)) [])
      (.uninitializedRead v) := by
  induction script generalizing d assigned with
  | nil => simp [Script.accesses, firstUnassigned?] at hv
  | cons s script ih =>
    rw [Script.mapOperators, List.map_cons, Script.steps_cons, emitList_append]
    rcases hd.firstUnassigned?_cases hv with hs | ⟨hwritten, hrest⟩
    · exact (s.refuses_steps hpolicy hs).bind
    · refine (s.leads_steps fun _ => hwritten).bind_refuses fun stack hstack => ?_
      subst hstack
      exact ih (s.assigned_lower (by simp [hpolicy]) hd) hrest

/-! ### Symbols that cannot be computed -/

/-- A step that reads variables succeeds or fails at a read. Either way, a failure behind it is a
    failure of both. -/
theorem fails_bind {x : Emit α} {next : α → Emit β} {names : List String} {a : α} {d' : Draft}
    (hleads : (options.reads = .error → ∀ name ∈ names, d.isWritten name = true) →
      Leads options d x (· = a) d')
    (hrefuses : options.reads = .error → ∀ {v}, d.firstUnwritten? names = some v →
      Refuses options d x (.uninitializedRead v))
    (hnext : ∃ err, Refuses options d' (next a) err) :
    ∃ err, Refuses options d (x >>= next) err := by
  have hbehind (hread : options.reads = .error → ∀ name ∈ names, d.isWritten name = true) :
      ∃ err, Refuses options d (x >>= next) err := by
    obtain ⟨err, h⟩ := hnext
    refine ⟨err, (hleads hread).bind_refuses fun a' ha => ?_⟩
    subst ha
    exact h
  -- The first part can refuse by itself, under one policy, and the second does if it does not.
  by_cases hpolicy : options.reads = .error
  · cases hv : d.firstUnwritten? names with
    | some v => exact ⟨_, (hrefuses hpolicy hv).bind⟩
    | none => exact hbehind fun _ => firstUnwritten?_eq_none_iff.mp hv
  · exact hbehind fun h => absurd h hpolicy

/-- What fails on every stack with one more operand fails behind the steps of an expression. -/
theorem Expr.fails_bind (e : Expr Operator) (stack : List Operand) {next : List Operand → Emit α}
    (hnext : ∀ (d' : Draft) (x : Operand), ∃ err, Refuses options d' (next (x :: stack)) err) :
    ∃ err, Refuses options d (emitList (e.map Operator.symbol).steps stack >>= next) err :=
  Straightline.fails_bind (fun hread => e.leads_steps hread stack)
    (fun hpolicy _ hv => e.refuses_steps hpolicy hv stack) (hnext _ _)

/-- What fails on the empty stack fails behind the steps of a statement. -/
theorem Statement.fails_bind (s : Statement Operator) {next : List Operand → Emit α}
    (hnext : ∀ d' : Draft, ∃ err, Refuses options d' (next []) err) :
    ∃ err, Refuses options d (emitList (s.map Operator.symbol).steps [] >>= next) err :=
  Straightline.fails_bind (fun hread => s.leads_steps hread)
    (fun hpolicy _ hv => s.refuses_steps hpolicy hv) (hnext _)

/-- An expression over symbols is `e'.map Operator.symbol`, or its steps fail on every draft. -/
theorem Expr.computes_or_fails (options : Options) (e : Expr Symbol) :
    (∃ e' : Expr Operator, e'.map Operator.symbol = e) ∨
      ∀ (d : Draft) (stack : List Operand), ∃ err,
        Refuses options d (emitList e.steps stack) err := by
  induction e with
  | literal value => exact .inl ⟨.literal value, rfl⟩
  | var name => exact .inl ⟨.var name, rfl⟩
  | negate operand ih =>
    rcases ih with ⟨e', rfl⟩ | hfails
    · exact .inl ⟨.negate e', rfl⟩
    · refine .inr fun d stack => ?_
      obtain ⟨err, h⟩ := hfails d stack
      rw [Expr.steps, emitList_append]
      exact ⟨err, h.bind⟩
  | binary s lhs rhs ihl ihr =>
    simp only [Expr.steps, emitList_append, bind_assoc]
    rcases ihl with ⟨l, rfl⟩ | hfails
    · rcases ihr with ⟨r, rfl⟩ | hfails
      · by_cases hs : s.IsComputable
        · obtain ⟨op, rfl⟩ := hs
          exact .inl ⟨.binary op l r, rfl⟩
        · -- The operands are computed, and then the symbol is refused.
          refine .inr fun d stack => l.fails_bind stack fun d' x => r.fails_bind _ fun d'' y => ?_
          rw [emitList_singleton]
          exact ⟨_, (refuses_binaryOp hs x y).bind⟩
      · refine .inr fun d stack => l.fails_bind stack fun d' x => ?_
        obtain ⟨err, h⟩ := hfails d' (x :: stack)
        exact ⟨err, h.bind⟩
    · refine .inr fun d stack => ?_
      obtain ⟨err, h⟩ := hfails d stack
      exact ⟨err, h.bind⟩

/-- A statement over symbols is `s'.map Operator.symbol`, or its steps fail on every draft. -/
theorem Statement.computes_or_fails (options : Options) (s : Statement Symbol) :
    (∃ s' : Statement Operator, s'.map Operator.symbol = s) ∨
      ∀ d : Draft, ∃ err, Refuses options d (emitList s.steps []) err := by
  cases s with
  | printString text => exact .inl ⟨.printString text, rfl⟩
  -- An operator that cannot be computed makes the steps of the value fail, before the last one.
  | printNumber value =>
    rcases value.computes_or_fails options with ⟨e, rfl⟩ | hfails
    · exact .inl ⟨.printNumber e, rfl⟩
    · refine .inr fun d => ?_
      obtain ⟨err, h⟩ := hfails d []
      rw [Statement.steps, emitList_append]
      exact ⟨err, h.bind⟩
  | assign name value =>
    rcases value.computes_or_fails options with ⟨e, rfl⟩ | hfails
    · exact .inl ⟨.assign name e, rfl⟩
    · refine .inr fun d => ?_
      obtain ⟨err, h⟩ := hfails d []
      rw [Statement.steps, emitList_append]
      exact ⟨err, h.bind⟩

/-- A script over symbols is `script'.mapOperators Operator.symbol`, or its steps fail on every
    draft. -/
theorem Script.computes_or_fails (options : Options) (script : Script Symbol) :
    (∃ script' : Script Operator, script'.mapOperators Operator.symbol = script) ∨
      ∀ d : Draft, ∃ err, Refuses options d (emitList (Script.steps script) []) err := by
  induction script with
  | nil => exact .inl ⟨[], rfl⟩
  | cons s script ih =>
    simp only [Script.steps_cons, emitList_append]
    rcases s.computes_or_fails options with ⟨s, rfl⟩ | hfails
    · rcases ih with ⟨script, rfl⟩ | hfails
      · exact .inl ⟨s :: script, rfl⟩
      · exact .inr fun d => s.fails_bind hfails
    · refine .inr fun d => ?_
      obtain ⟨err, h⟩ := hfails d
      exact ⟨err, h.bind⟩

end

/-! ### Compilations of sources -/

/-- Steps with places do what they do without, and blame a place for an error. -/
theorem Step.emitAll_eq (placed : List PlacedStep) (stack : List Operand) (c : Compilation) :
    match Step.emitList (placed.map (·.step)) stack c with
    | (.ok stack', c') => Step.emitAll placed stack c = (.ok stack', c')
    | (.error e, c') => ∃ span, Step.emitAll placed stack c = (.error (.emission e span), c') := by
  induction placed generalizing stack c with
  | nil => rfl
  | cons s placed ih =>
    rw [List.map_cons, Step.emitList, List.foldlM_cons]
    -- Blame adds the span to an error and leaves everything else.
    rcases hs : s.step.emit stack c with ⟨e | stack', c'⟩
    · rw [bind_of_error hs]
      exact ⟨s.span, bind_of_error (by rw [Emit.blaming, hs])⟩
    · rw [bind_of_ok hs]
      have hemit : Step.emitAll (s :: placed) stack c = Step.emitAll placed stack' c' :=
        bind_of_ok (by rw [Emit.blaming, hs])
      rw [hemit]
      exact ih stack' c'

/-- Where all steps of a source succeed, it is added unless reading it fails behind them. -/
theorem compileInto_of_ok {source : String} {c c' : Compilation} {stack : List Operand}
    (h : Step.emitList ((parse source).steps.map (·.step)) [] c = (.ok stack, c')) :
    compileInto source c = ((parse source).outcome.mapError .malformed, c') := by
  have hall := Step.emitAll_eq (parse source).steps [] c
  rw [h] at hall
  rw [compileInto, bind_of_ok hall]
  cases (parse source).outcome <;> rfl

/-- Where a step of a source fails, this is the error, whatever stands behind it. -/
theorem compileInto_of_error {source : String} {c c' : Compilation} {e : EmitError}
    (h : Step.emitList ((parse source).steps.map (·.step)) [] c = (.error e, c')) :
    ∃ span, compileInto source c = (.error (.emission e span), c') := by
  have hall := Step.emitAll_eq (parse source).steps [] c
  rw [h] at hall
  obtain ⟨span, hall⟩ := hall
  exact ⟨span, bind_of_error hall⟩

section

variable {source : String} {options : Options} {c c' : Compilation}

/-- Where `compileInto` fails on a new compilation, `compile` fails with the same error. -/
theorem compile_of_error {e : ScriptError} (h : compileInto source { options } = (.error e, c)) :
    compile source options = .error e := by
  rw [compile, show compilation source options = _ from bind_of_error h]

/-- Where `compileInto` and then `finish` succeed, `compile` gives the module. -/
theorem compile_of_finish (h : compileInto source { options } = (.ok (), c))
    (hfinish : Emit.finish c = (.ok (), c')) : compile source options = .ok c'.module := by
  rw [compile, show compilation source options = _ from bind_of_ok h, Emit.blaming, hfinish]

/-- Where `finish` fails, `compile` blames the whole source. -/
theorem compile_of_finish_error (h : compileInto source { options } = (.ok (), c)) {e : EmitError}
    (hfinish : Emit.finish c = (.error e, c')) :
    compile source options = .error (.emission e ⟨0, source.utf8ByteSize⟩) := by
  rw [compile, show compilation source options = _ from bind_of_ok h, Emit.blaming, hfinish]

end

/-- A source whose steps lead to `d` is compiled to `d.finish.module`. -/
theorem compile_of_leads {source : String} {options : Options} {steps : List Step} {d : Draft}
    (hparse : (parse source).Yields steps ())
    (h : Emit.Leads options {} (Step.emitList steps []) (· = []) d) :
    compile source options = .ok (d.finish.module options.moduleName) := by
  obtain ⟨stack, c, hlist, -, hc⟩ := h { options } (Compilation.follows_empty options)
  obtain ⟨c', hfinish, hmodule⟩ := hc.finish
  rw [← hparse.1] at hlist
  have hinto : compileInto source { options } = (.ok (), c) := by
    rw [compileInto_of_ok hlist, hparse.2]
    rfl
  rw [compile_of_finish hinto hfinish, hmodule]

/-- A source whose steps are refused is not compiled. -/
theorem compile_of_refuses {source : String} {options : Options} {steps : List Step} {e : EmitError}
    (hparse : (parse source).Yields steps ())
    (h : Emit.Refuses options {} (Step.emitList steps []) e) :
    ∃ span, compile source options = .error (.emission e span) := by
  obtain ⟨c, hlist⟩ := h { options } (Compilation.follows_empty options)
  rw [← hparse.1] at hlist
  obtain ⟨span, hinto⟩ := compileInto_of_error hlist
  exact ⟨span, compile_of_error hinto⟩

/-- A source that is compiled can be read to its end. -/
theorem yields_of_compile {source : String} {options : Options} {m : Module}
    (h : compile source options = .ok m) : ∃ steps, (parse source).Yields steps () := by
  cases houtcome : (parse source).outcome with
  | ok u => exact ⟨_, rfl, houtcome⟩
  | error e =>
    -- Reading fails behind the steps, if not one of them did before.
    have hfails : ∃ e' c, compileInto source { options } = (.error e', c) := by
      rcases hlist : Step.emitList ((parse source).steps.map (·.step)) [] { options } with
        ⟨e' | stack, c⟩
      · obtain ⟨span, hinto⟩ := compileInto_of_error hlist
        exact ⟨_, c, hinto⟩
      · refine ⟨.malformed e, c, ?_⟩
        rw [compileInto_of_ok hlist, houtcome]
        rfl
    obtain ⟨e', c, hinto⟩ := hfails
    rw [compile_of_error hinto] at h
    cases h

/-- A source that is compiled has a tree: `ParsesTo source script`. -/
theorem parsesTo_of_compile {source : String} {options : Options} {m : Module}
    (h : compile source options = .ok m) : ∃ script, ParsesTo source script := by
  obtain ⟨steps, hparse⟩ := yields_of_compile h
  obtain ⟨tokens, script, hlex, hreads, rfl⟩ := parse_yields_iff.mp hparse
  rcases Script.computes_or_fails options script with ⟨script', rfl⟩ | hfails
  · obtain ⟨script'', hmap, hreads'⟩ := hreads.exists_operators fun s hs => by
      rw [Script.operators_mapOperators] at hs
      obtain ⟨op, -, hop⟩ := List.mem_map.mp hs
      exact ⟨op, hop⟩
    exact ⟨script'', tokens, hlex, hreads'⟩
  · -- A symbol without an instruction would have made the compilation fail.
    obtain ⟨err, hrefuses⟩ := hfails {}
    obtain ⟨span, herror⟩ := compile_of_refuses hparse hrefuses
    rw [herror] at h
    cases h

/-- The steps of a source are those of its tree. -/
theorem ParsesTo.yields {source : String} {script : Script Operator} (h : ParsesTo source script) :
    (parse source).Yields (Script.steps (script.mapOperators Operator.symbol)) () := by
  obtain ⟨tokens, hlex, hreads⟩ := h
  exact parse_yields_iff.mpr ⟨tokens, _, hlex, hreads.mapped _, rfl⟩

/-- A source whose tree has no read without an assignment, if the policy asks for this, is compiled
    to `script.lower`. -/
theorem ParsesTo.compile_eq_ok {source : String} {script : Script Operator}
    (h : ParsesTo source script) {options : Options}
    (hread : options.reads = .error → firstUnassigned? [] script.accesses = none) :
    compile source options =
      .ok ((script.lower options.reads {}).finish.module options.moduleName) :=
  compile_of_leads h.yields (script.leads_steps fun hpolicy => admits_empty (hread hpolicy))

/-- Under the policy `error`, `compile` blames the first read without an assignment. -/
theorem ParsesTo.compile_eq_error {source : String} {script : Script Operator}
    (h : ParsesTo source script) {options : Options} (hpolicy : options.reads = .error) {v : String}
    (hv : firstUnassigned? [] script.accesses = some v) :
    ∃ span, compile source options = .error (.emission (.uninitializedRead v) span) :=
  compile_of_refuses h.yields (script.refuses_steps hpolicy assigned_empty hv)

/-- What is compiled under the policy `error` has no read before an assignment. -/
theorem ParsesTo.firstUnassigned?_eq_none {source : String} {script : Script Operator}
    (h : ParsesTo source script) {options : Options} {m : Module}
    (hm : compile source options = .ok m) (hpolicy : options.reads = .error) :
    firstUnassigned? [] script.accesses = none := by
  cases hv : firstUnassigned? [] script.accesses with
  | none => rfl
  | some v =>
    obtain ⟨span, herror⟩ := h.compile_eq_error hpolicy hv
    rw [herror] at hm
    cases hm

/-- `compile` gives `script.lower`, where `script` is the only tree of the source. -/
theorem compile_eq_lower {source : String} {options : Options} {m : Module}
    (h : compile source options = .ok m) :
    ∃ script, ParsesTo source script ∧ (∀ script', ParsesTo source script' → script' = script) ∧
      m = (script.lower options.reads {}).finish.module options.moduleName := by
  obtain ⟨script, hscript⟩ := parsesTo_of_compile h
  refine ⟨script, hscript, fun script' h' => h'.unique hscript, ?_⟩
  rw [hscript.compile_eq_ok (hscript.firstUnassigned?_eq_none h)] at h
  exact (Except.ok.inj h).symm

theorem compile_eq_lower_sample :
    ∃ m, compile sampleSource {} = .ok m ∧
      ∃ script, ParsesTo sampleSource script ∧
        (∀ script', ParsesTo sampleSource script' → script' = script) ∧
        m = (script.lower .zeroInit {}).finish.module "top" := by
  obtain ⟨m, h⟩ : ∃ m, compile sampleSource {} = .ok m :=
    ⟨_, parsesTo_sample.compile_eq_ok (by simp)⟩
  have hlower := compile_eq_lower h
  exact ⟨m, h, hlower⟩

end Straightline
