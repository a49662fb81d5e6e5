import Straightline.Script.Step

/-!
# Scripts as trees

A script as a list of statements over expression trees. Parentheses leave no trace in a tree, and a
minus sign right before a number is part of the literal.

* `Operator` are the operators that can be computed, and `Expr`, `Statement`, `Script` are the
  trees. They take the type of their operators as a parameter, since `==`, `%` and `^` can be read
  although nothing can be computed with them.
* `Script.steps` lists a script in postfix order. `Script.steps_injective` says that nothing is
  lost.
* `Script.accesses` are the reads and the completed assignments in the order of the source, and
  `firstUnassigned?` finds the first variable that is read before anything is assigned to it.
-/

namespace Straightline

/-! ### Operators -/

/-- An operator that can be computed. -/
inductive Operator where
  | arithmetic (op : Double.Arithmetic)
  | comparison (condition : Double.Comparison)
  deriving DecidableEq

namespace Operator

/-- The operator as a token. -/
def symbol : Operator → Symbol
  | arithmetic .add => .plus
  | arithmetic .sub => .minus
  | arithmetic .mul => .star
  | arithmetic .div => .slash
  | comparison .greater => .greater
  | comparison .less => .less

/-- Different operators are different tokens. -/
theorem symbol_injective {op op' : Operator} (h : op.symbol = op'.symbol) : op = op' := by
  rcases op with (_ | _ | _ | _) | (_ | _) <;> rcases op' with (_ | _ | _ | _) | (_ | _) <;>
    first | rfl | exact absurd h (by decide)

end Operator

/-- `s.IsComputable`: the symbol stands for an operator that can be computed. -/
def Symbol.IsComputable (s : Symbol) : Prop := ∃ op : Operator, op.symbol = s

/-- All symbols can be computed but `==`, `%` and `^`. -/
theorem Symbol.isComputable_iff (s : Symbol) :
    s.IsComputable ↔ s ≠ .equal ∧ s ≠ .percent ∧ s ≠ .caret := by
  constructor
  · rintro ⟨(_ | _ | _ | _) | (_ | _), rfl⟩ <;> decide
  · intro h
    cases s
    case plus => exact ⟨.arithmetic .add, rfl⟩
    case minus => exact ⟨.arithmetic .sub, rfl⟩
    case star => exact ⟨.arithmetic .mul, rfl⟩
    case slash => exact ⟨.arithmetic .div, rfl⟩
    case greater => exact ⟨.comparison .greater, rfl⟩
    case less => exact ⟨.comparison .less, rfl⟩
    all_goals simp at h

/-! ### Trees -/

/-- An expression with operators from `ω`. -/
inductive Expr (ω : Type) where
  | literal (value : Double)
  | var (name : String)
  /-- A minus sign in front of anything but a number. -/
  | negate (operand : Expr ω)
  | binary (op : ω) (lhs rhs : Expr ω)
  deriving DecidableEq

/-- A statement. -/
inductive Statement (ω : Type) where
  | printString (text : String)
  | printNumber (value : Expr ω)
  | assign (name : String) (value : Expr ω)
  deriving DecidableEq

/-- A script: statements from first to last. -/
abbrev Script (ω : Type) := List (Statement ω)

section

variable {ω ω' : Type}

/-- The tree with its operators exchanged. -/
def Expr.map (f : ω → ω') : Expr ω → Expr ω'
  | literal value => literal value
  | var name => var name
  | negate operand => negate (operand.map f)
  | binary op lhs rhs => binary (f op) (lhs.map f) (rhs.map f)

/-- The statement with its operators exchanged. -/
def Statement.map (f : ω → ω') : Statement ω → Statement ω'
  | printString text => printString text
  | printNumber value => printNumber (value.map f)
  | assign name value => assign name (value.map f)

/-- The script with its operators exchanged. -/
def Script.mapOperators (f : ω → ω') (script : Script ω) : Script ω' := script.map (Statement.map f)

/-- `Expr.map f` is injective if `f` is. -/
theorem Expr.map_injective {f : ω → ω'} (hf : ∀ {a b}, f a = f b → a = b) {e e' : Expr ω}
    (h : e.map f = e'.map f) : e = e' := by
  induction e generalizing e' with
  | literal | var =>
    cases e' <;> simp_all [Expr.map]
  | negate operand ih =>
    cases e' <;> simp only [Expr.map, reduceCtorEq, Expr.negate.injEq] at h
    exact congrArg _ (ih h)
  | binary op lhs rhs ihl ihr =>
    cases e' <;> simp only [Expr.map, reduceCtorEq, Expr.binary.injEq] at h
    obtain ⟨hop, hl, hr⟩ := h
    rw [hf hop, ihl hl, ihr hr]

/-- `Statement.map f` is injective if `f` is. -/
theorem Statement.map_injective {f : ω → ω'} (hf : ∀ {a b}, f a = f b → a = b)
    {s s' : Statement ω} (h : s.map f = s'.map f) : s = s' := by
  cases s <;> cases s' <;> simp only [Statement.map, reduceCtorEq, Statement.printString.injEq,
    Statement.printNumber.injEq, Statement.assign.injEq] at h
  · exact congrArg _ h
  · exact congrArg _ (Expr.map_injective hf h)
  · rw [h.1, Expr.map_injective hf h.2]

/-- `mapOperators f` is injective if `f` is. -/
theorem Script.mapOperators_injective {f : ω → ω'} (hf : ∀ {a b}, f a = f b → a = b)
    {s s' : Script ω} (h : s.mapOperators f = s'.mapOperators f) : s = s' :=
  (List.map_inj_right fun _ _ => Statement.map_injective hf).mp h

/-- The operators of an expression. -/
def Expr.operators : Expr ω → List ω
  | literal _ => []
  | var _ => []
  | negate operand => operand.operators
  | binary op lhs rhs => op :: (lhs.operators ++ rhs.operators)

/-- The operators of a statement. -/
def Statement.operators : Statement ω → List ω
  | printString _ => []
  | printNumber value => value.operators
  | assign _ value => value.operators

/-- The operators of a script. -/
def Script.operators (script : Script ω) : List ω := script.flatMap Statement.operators

@[simp] theorem Expr.operators_map (f : ω → ω') (e : Expr ω) :
    (e.map f).operators = e.operators.map f := by
  induction e with
  | literal | var => rfl
  | negate operand ih => exact ih
  | binary op lhs rhs ihl ihr =>
    rw [Expr.map, Expr.operators, Expr.operators, ihl, ihr, List.map_cons, List.map_append]

@[simp] theorem Script.operators_mapOperators (f : ω → ω') (script : Script ω) :
    (script.mapOperators f).operators = script.operators.map f := by
  rw [Script.operators, Script.mapOperators, List.flatMap_map, Script.operators, List.map_flatMap]
  refine congrFun (congrArg _ (funext fun s => ?_)) _
  cases s <;> simp [Statement.map, Statement.operators]

/-! ### Variables -/

/-- The variables that an expression reads, from left to right. -/
def Expr.vars : Expr ω → List String
  | literal _ => []
  | var name => [name]
  | negate operand => operand.vars
  | binary _ lhs rhs => lhs.vars ++ rhs.vars

/-- What a script does to a variable. -/
inductive Access where
  | read (name : String)
  /-- The end of an assignment, when its expression has been computed. -/
  | assign (name : String)
  deriving DecidableEq

/-- The variable that is accessed. -/
def Access.name : Access → String
  | read name => name
  | assign name => name

/-- The variables that a statement reads. -/
def Statement.reads : Statement ω → List String
  | printString _ => []
  | printNumber value => value.vars
  | assign _ value => value.vars

/-- The variable that a statement assigns, if it is an assignment. -/
def Statement.targets : Statement ω → List String
  | assign name _ => [name]
  | _ => []

/-- The reads of a statement, and then its assignment. -/
def Statement.accesses (s : Statement ω) : List Access := s.reads.map .read ++ s.targets.map .assign

/-- The reads and the completed assignments of a script, in the order of the source. -/
def Script.accesses (script : Script ω) : List Access := script.flatMap Statement.accesses

/-- The variables that a script assigns or reads. -/
def Script.vars (script : Script ω) : List String := script.accesses.map Access.name

end

/-! ### Reads before any assignment -/

/-- The first variable that is read when nothing was assigned to it; `assigned` are the variables
    with an assignment before. -/
def firstUnassigned? (assigned : List String) : List Access → Option String
  | [] => none
  | .read name :: rest =>
    if name ∈ assigned then firstUnassigned? assigned rest else some name
  | .assign name :: rest => firstUnassigned? (name :: assigned) rest

/-- `firstUnassigned?` finds one of the reads in front, or goes on behind them. -/
theorem firstUnassigned?_reads (assigned names : List String) (rest : List Access) :
    firstUnassigned? assigned (names.map .read ++ rest) =
      (names.find? (· ∉ assigned)).or (firstUnassigned? assigned rest) := by
  induction names with
  | nil => rfl
  | cons name names ih =>
    rw [List.map_cons, List.cons_append, firstUnassigned?]
    by_cases hname : name ∈ assigned
    · rw [if_pos hname, ih, List.find?_cons_of_neg (by simpa using hname)]
    · rw [if_neg hname, List.find?_cons_of_pos (by simpa using hname)]
      rfl

/-- `firstUnassigned?` finds a read of the statement, or goes on with its assignment made. -/
theorem firstUnassigned?_statement {ω : Type} (assigned : List String) (s : Statement ω)
    (rest : List Access) :
    firstUnassigned? assigned (s.accesses ++ rest) =
      (s.reads.find? (· ∉ assigned)).or (firstUnassigned? (s.targets ++ assigned) rest) := by
  rw [Statement.accesses, List.append_assoc, firstUnassigned?_reads]
  cases s <;> rfl

/-- `AssignedBeforeRead accesses`: every read comes after an assignment to the same variable. -/
def AssignedBeforeRead (accesses : List Access) : Prop :=
  ∀ before name after, accesses = before ++ .read name :: after → .assign name ∈ before

/-- `IsFirstUnassigned accesses name`: the variable is the first that is read with no assignment to
    it before. -/
def IsFirstUnassigned (accesses : List Access) (name : String) : Prop :=
  ∃ before after, accesses = before ++ .read name :: after ∧ .assign name ∉ before ∧
    AssignedBeforeRead before

/-- `firstUnassigned?` finds nothing iff every read is of a variable in `assigned` or comes after an
    assignment. -/
theorem firstUnassigned?_eq_none_iff (assigned : List String) (accesses : List Access) :
    firstUnassigned? assigned accesses = none ↔
      ∀ before name after, accesses = before ++ .read name :: after →
        name ∈ assigned ∨ .assign name ∈ before := by
  induction accesses generalizing assigned with
  | nil => simp [firstUnassigned?]
  | cons a rest ih =>
    -- A read in front has nothing before it; any other one is a read of the rest.
    cases a with
    | read x =>
      constructor
      · intro h before name after heq
        rw [firstUnassigned?] at h
        split at h
        · next hx =>
          cases before with
          | nil => simp_all
          | cons b before =>
            rw [List.cons_append] at heq
            obtain ⟨rfl, hrest⟩ := List.cons.inj heq
            simpa using (ih assigned).mp h before name after hrest
        · cases h
      · intro h
        have hx : x ∈ assigned := by simpa using h [] x rest rfl
        rw [firstUnassigned?, if_pos hx, ih]
        intro before name after heq
        simpa using h (.read x :: before) name after (by rw [heq, List.cons_append])
    | assign x =>
      rw [firstUnassigned?, ih]
      constructor
      · intro h before name after heq
        cases before with
        | nil => simp at heq
        | cons b before =>
          rw [List.cons_append] at heq
          obtain ⟨rfl, hrest⟩ := List.cons.inj heq
          have := h before name after hrest
          grind
      · intro h before name after heq
        have := h (.assign x :: before) name after (by rw [heq, List.cons_append])
        grind

/-- `AssignedBeforeRead accesses` iff `firstUnassigned?` finds nothing. -/
theorem assignedBeforeRead_iff (accesses : List Access) :
    AssignedBeforeRead accesses ↔ firstUnassigned? [] accesses = none := by
  rw [firstUnassigned?_eq_none_iff]
  simp [AssignedBeforeRead]

/-- `firstUnassigned?` finds a read with no assignment before it, and finds nothing in front of
    that. -/
theorem firstUnassigned?_eq_some {assigned : List String} {accesses : List Access} {name : String}
    (h : firstUnassigned? assigned accesses = some name) :
    ∃ before after, accesses = before ++ .read name :: after ∧ name ∉ assigned ∧
      .assign name ∉ before ∧ firstUnassigned? assigned before = none := by
  induction accesses generalizing assigned with
  | nil => simp [firstUnassigned?] at h
  | cons a rest ih =>
    cases a with
    | read x =>
      rw [firstUnassigned?] at h
      split at h
      · -- The first read of an unassigned name is here, or behind a read that is fine.
        next hx =>
        obtain ⟨before, after, heq, hn, hb, hf⟩ := ih h
        refine ⟨.read x :: before, after, by rw [heq, List.cons_append], hn, by simpa using hb, ?_⟩
        rw [firstUnassigned?, if_pos hx, hf]
      · next hx =>
        obtain rfl := Option.some.inj h
        exact ⟨[], rest, rfl, hx, List.not_mem_nil, rfl⟩
    | assign x =>
      rw [firstUnassigned?] at h
      obtain ⟨before, after, heq, hn, hb, hf⟩ := ih h
      rw [List.mem_cons, not_or] at hn
      refine ⟨.assign x :: before, after, by rw [heq, List.cons_append], hn.2, ?_, ?_⟩
      · simpa using ⟨hn.1, hb⟩
      · rw [firstUnassigned?, hf]

/-- The name that `firstUnassigned?` finds satisfies `IsFirstUnassigned`. -/
theorem isFirstUnassigned_of_eq_some {accesses : List Access} {name : String}
    (h : firstUnassigned? [] accesses = some name) : IsFirstUnassigned accesses name := by
  obtain ⟨before, after, heq, -, hb, hf⟩ := firstUnassigned?_eq_some h
  exact ⟨before, after, heq, hb, (assignedBeforeRead_iff before).mpr hf⟩

/-! ### Postfix order -/

/-- The steps of an expression: operands, then their operator. -/
def Expr.steps : Expr Symbol → List Step
  | literal value => [.push value]
  | var name => [.read name]
  | negate operand => operand.steps ++ [.negate]
  | binary symbol lhs rhs => lhs.steps ++ rhs.steps ++ [.apply symbol]

/-- The steps of a statement: its expression, and then what is done with the value. -/
def Statement.steps : Statement Symbol → List Step
  | printString text => [.printString text]
  | printNumber value => value.steps ++ [.printNumber]
  | assign name value => value.steps ++ [.write name]

/-- The steps of a script, statement by statement. -/
def Script.steps (script : Script Symbol) : List Step := script.flatMap Statement.steps

@[simp] theorem Script.steps_nil : Script.steps [] = [] := rfl

@[simp] theorem Script.steps_cons (s : Statement Symbol) (script : Script Symbol) :
    Script.steps (s :: script) = s.steps ++ Script.steps script := by
  simp [Script.steps]

/-- The script that steps make, given the expressions on the stack, top first. -/
def Step.rebuild : List Step → List (Expr Symbol) → Option (Script Symbol)
  | [], [] => some []
  | .push value :: rest, stack => rebuild rest (.literal value :: stack)
  | .read name :: rest, stack => rebuild rest (.var name :: stack)
  | .negate :: rest, e :: stack => rebuild rest (.negate e :: stack)
  | .apply symbol :: rest, r :: l :: stack => rebuild rest (.binary symbol l r :: stack)
  | .printString text :: rest, stack => (rebuild rest stack).map (.printString text :: ·)
  | .printNumber :: rest, e :: stack => (rebuild rest stack).map (.printNumber e :: ·)
  | .write name :: rest, e :: stack => (rebuild rest stack).map (.assign name e :: ·)
  | _, _ => none

/-- `rebuild` puts an expression on the stack for its steps. -/
theorem Expr.rebuild_steps (e : Expr Symbol) (rest : List Step) (stack : List (Expr Symbol)) :
    Step.rebuild (e.steps ++ rest) stack = Step.rebuild rest (e :: stack) := by
  induction e generalizing rest stack with
  | literal value => rfl
  | var name => rfl
  | negate operand ih =>
    rw [Expr.steps, List.append_assoc, ih]
    rfl
  | binary symbol lhs rhs ihl ihr =>
    rw [Expr.steps, List.append_assoc, List.append_assoc, ihl, ihr]
    rfl

/-- `rebuild` gives a script back from its steps. -/
theorem Script.rebuild_steps (script : Script Symbol) :
    Step.rebuild (Script.steps script) [] = some script := by
  induction script with
  | nil => rfl
  | cons s script ih =>
    rw [Script.steps_cons]
    cases s with
    | printString text =>
      show (Step.rebuild (Script.steps script) []).map _ = _
      rw [ih]
      rfl
    -- The value is rebuilt on the stack, and the step of the statement takes it off.
    | printNumber value =>
      rw [Statement.steps, List.append_assoc, Expr.rebuild_steps]
      show (Step.rebuild (Script.steps script) []).map _ = _
      rw [ih]
      rfl
    | assign name value =>
      rw [Statement.steps, List.append_assoc, Expr.rebuild_steps]
      show (Step.rebuild (Script.steps script) []).map _ = _
      rw [ih]
      rfl

/-- Different scripts have different steps. -/
theorem Script.steps_injective {s s' : Script Symbol} (h : Script.steps s = Script.steps s') :
    s = s' := by
  have hs := Script.rebuild_steps s
  rw [h, Script.rebuild_steps] at hs
  exact (Option.some.inj hs).symm

end Straightline
