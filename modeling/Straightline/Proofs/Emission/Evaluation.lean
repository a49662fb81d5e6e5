import Straightline.Proofs.Emission.Effects

/-!
# The meaning of calls

Calls can interleave variables and share results in ways that no script can. What they mean is said
by evaluating them one after another, with numbers in place of operands. This is less than
`Command.eval` says of all commands: there is no datum but a number, and no failure.

* `evaluate` evaluates calls.
* `Effects.Agrees` compares the effects of commands with what calls have done. `Call.Agrees` says
  that a call keeps them together, and `Call.agrees_of_matches` that all calls do that store and
  print numbers only.
* `Session.Tracks` ties a session to an evaluation through the effects that `Session.Mirrors` ties
  it to, and every call keeps it.
* `run_session`: the finished program of a session does what the evaluation says.
-/

namespace Straightline

open Draft

/-! ### Evaluation -/

/-- The number that is meant, after these were handed out. An integer constant is no number. -/
def Argument.number? (numbers : List Double) : Argument → Option (Option Double)
  | constant value => some (some value)
  | integer _ => some none
  | result index => numbers[index]?.map some

/-- What calls have done so far: the values of the variables that have one, and what was printed. -/
structure CallState where
  values : String → Option Double := fun _ => none
  output : String := ""

namespace CallState

/-- Give a variable a value. -/
def set (p : CallState) (name : String) (value : Double) : CallState :=
  { p with values := fun other => if other = name then some value else p.values other }

/-- Print a line. -/
def print (p : CallState) (line : String) : CallState :=
  { p with output := p.output ++ (line ++ "\n") }

/-- The values with zero for variables without one. -/
def current (p : CallState) (name : String) : Double := (p.values name).getD Double.zero

/-- After `set name`, this variable has a value, and any other that had one. -/
theorem isSome_set (p : CallState) (name : String) (value : Double) (other : String) :
    ((p.set name value).values other).isSome =
      (decide (other = name) || (p.values other).isSome) := by
  unfold set
  dsimp only
  split
  · next h => simp [h]
  · next h => simp [h]

end CallState

/-- The result of an operator, if there is one and both operands are numbers. -/
def operate (op : Option Operator) (lhs rhs : Option Double) : List Double :=
  match op, lhs, rhs with
  | some op, some u, some v => [op.eval u v]
  | _, _, _ => []

/-- What a call hands out and what it does. A call that fails hands out nothing and does nothing.
    The read of a variable without a value depends on the policy; under `preserve`, what it hands
    out does not matter, since the program does not get there. -/
def Call.eval (policy : ReadPolicy) (p : CallState) : Call (Option Double) → List Double × CallState
  | constant value => ([value], p)
  | read name =>
    match p.values name, policy with
    | some value, _ => ([value], p)
    | none, .preserve => ([Double.zero], p)
    | none, .zeroInit => ([Double.zero], p.set name Double.zero)
    | none, .error => ([], p)
  | write name (some value) => ([], p.set name value)
  | write _ none => ([], p)
  | binaryOp lhs rhs symbol => (operate (Operator.ofText? symbol) lhs rhs, p)
  | apply lhs rhs op => (operate op.operator? lhs rhs, p)
  | printNumber (some value) => ([], p.print (value.toFixed 6))
  | printNumber none => ([], p)
  | printString text => ([], p.print text)

/-- What calls have done so far, and the numbers that they handed out. -/
structure Evaluation extends CallState where
  numbers : List Double := []

namespace Evaluation

/-- Evaluate a call, unless it is given a number that was not handed out. -/
def make (policy : ReadPolicy) (e : Evaluation) (call : Call Argument) : Option Evaluation := do
  let call ← call.traverse (·.number? e.numbers)
  let (numbers, p) := call.eval policy e.toCallState
  return { p with numbers := e.numbers ++ numbers }

end Evaluation

/-- Evaluate calls from the start. -/
def evaluate (policy : ReadPolicy) (calls : List (Call Argument)) : Option Evaluation :=
  calls.foldlM (Evaluation.make policy) {}

/-- Whether a variable is read before anything is written to it. -/
def ReadsEarly (calls : List (Call Argument)) : Prop :=
  ∃ before name after, calls = before ++ .read name :: after ∧ ∀ value, .write name value ∉ before

/-! ### Data and numbers -/

namespace Datum

/-- The number that a datum stands for. A whole number stands for none. -/
def number? : Datum → Option Double
  | truth t => some (Double.ofBool t)
  | number v => some v
  | count _ => none
  | mistyped _ => none

/-- `u.Means v` says that `u` stands for the number `v`, or is an integer constant if there is
    none. -/
def Means (u : Datum) : Option Double → Prop
  | some v => u.number? = some v
  | none => ∃ n, u = .count n

variable {u : Datum} {v : Double}

/-- A datum that stands for a number is this number where a double is asked for. -/
theorem content_of_number? (h : u.number? = some v) : u.content = .number v := by
  cases u <;> simp_all [number?, content]

/-- Such a datum is a double in the code. -/
theorem wideTy_of_number? (h : u.number? = some v) : u.wideTy = .double := by
  cases u <;> simp_all [number?, wideTy]

end Datum

/-- An argument that has a datum has a number, or is an integer constant on both sides. -/
theorem Argument.exists_number {data : List Datum} {numbers : List Double}
    (hdata : List.Forall₂ (fun u v => u.number? = some v) data numbers) {a : Argument} {u : Datum}
    (h : a.datum? data = some u) : ∃ v, a.number? numbers = some v ∧ u.Means v := by
  cases a with
  | constant value =>
    obtain rfl := Option.some.inj h
    exact ⟨_, rfl, rfl⟩
  | integer value =>
    obtain rfl := Option.some.inj h
    exact ⟨_, rfl, value, rfl⟩
  | result index =>
    obtain ⟨v, hv, huv⟩ := exists_getElem?_of_forall₂ hdata h
    exact ⟨some v, by simp [number?, hv], huv⟩

namespace Effects

/-- `p.Agrees q` says that the variables hold the values that `q` has for them, and that the same
    was printed. -/
structure Agrees (p : Effects) (q : CallState) : Prop where
  values : ∀ name, p.values name = (q.values name).map .number
  output : p.output = q.output

variable {p : Effects} {q : CallState}

/-- `set` keeps effects and calls together. -/
theorem Agrees.set (h : p.Agrees q) (name : String) (v : Double) :
    (p.set name (.number v)).Agrees (q.set name v) where
  values other := by
    by_cases hname : other = name <;> simp [Effects.set, CallState.set, hname, h.values]
  output := h.output

/-- `print` keeps effects and calls together. -/
theorem Agrees.print (h : p.Agrees q) (line : String) :
    (p.print (line ++ "\n")).2.Agrees (q.print line) where
  values := h.values
  output := congrArg (· ++ (line ++ "\n")) h.output

/-- A failure changes no variable and prints nothing. -/
theorem Agrees.fail (h : p.Agrees q) (e : RunError) : (p.fail e).Agrees q := ⟨h.values, h.output⟩

/-- `format "%f\n"` prints a number with six decimal places. -/
theorem format_number (p : Effects) (v : Double) :
    p.format "%f\n" (.double v) = p.print (v.toFixed 6 ++ "\n") := by
  have htext : Module.render { name := "" } "%f\n" "%f\n".toList [.double v] =
      .ok (v.toFixed 6 ++ "\n") := rfl
  unfold format
  rw [htext]

/-- `Effects.operate` has the result that `operate` evaluates to, or both refuse. -/
theorem operate_of_means (p : Effects) (op : Option Operator) {u v : Datum} {x y : Option Double}
    (hu : u.Means x) (hv : v.Means y) :
    (p.operate op u v).2 = p ∧
      List.Forall₂ (fun u v => u.number? = some v) (p.operate op u v).1
        (Straightline.operate op x y) := by
  cases op with
  | none => exact ⟨rfl, .nil⟩
  | some op =>
    -- An integer constant is refused on either side of the operator.
    cases x with
    | none =>
      obtain ⟨n, rfl⟩ := hu
      exact ⟨rfl, .nil⟩
    | some x =>
      cases y with
      | none =>
        obtain ⟨n, rfl⟩ := hv
        have hrefused : ¬ (u.wideTy = .double ∧ (Datum.count n).wideTy = .double) :=
          fun h => by cases h.2
        rw [operate, if_neg hrefused]
        exact ⟨rfl, .nil⟩
      | some y =>
        have hcompute : op.compute u.content.value v.content.value = .ok (op.datum x y) := by
          rw [Datum.content_of_number? hu, Datum.content_of_number? hv]
          rfl
        rw [operate, if_pos ⟨Datum.wideTy_of_number? hu, Datum.wideTy_of_number? hv⟩, hcompute]
        refine ⟨rfl, .cons ?_ .nil⟩
        cases op <;> rfl

end Effects

/-! ### What a call does -/

namespace Call

/-- `call.IsStray policy p`: under `preserve`, the call reads a variable that has no value. -/
def IsStray (policy : ReadPolicy) (p : CallState) (call : Call (Option Double)) : Prop :=
  policy = .preserve ∧ ∃ name, call = .read name ∧ p.values name = none

/-- `made.Agrees policy p q meant` says that the command of a call does from `p` what the call is
    evaluated to from `q`. It fails only if it is stray. What a print hands out is left out. -/
structure Agrees (policy : ReadPolicy) (p : Effects) (q : CallState) (made : Call Datum)
    (meant : Call (Option Double)) : Prop where
  state : ((Command.call made).eval policy p).2.Agrees (meant.eval policy q).2
  data : List.Forall₂ (fun u v => u.number? = some v)
    (if made.isPrint then [] else ((Command.call made).eval policy p).1) (meant.eval policy q).1
  failure : ¬ meant.IsStray policy q → ((Command.call made).eval policy p).2.failure = p.failure
  stray : meant.IsStray policy q →
    ((Command.call made).eval policy p).2 = p.fail (.uninitializedLoad "")

variable {policy : ReadPolicy} {p : Effects} {q : CallState}

/-- Only reads are stray. -/
theorem not_isStray {call : Call (Option Double)} (h : ∀ name, call ≠ .read name) :
    ¬ call.IsStray policy q := by
  rintro ⟨-, name, hname, -⟩
  exact h name hname

/-- A read does what it is evaluated to, under each policy. -/
theorem agrees_read (h : p.Agrees q) (name : String) :
    Agrees policy p q (.read name) (.read name) := by
  cases hv : q.values name with
  -- The variable has a value on both sides.
  | some v =>
    have hp : p.values name = some (.number v) := by rw [h.values, hv, Option.map_some]
    have heval : (Call.read name).eval policy q = ([v], q) := by simp [eval, hv]
    refine ⟨?_, ?_, ?_, ?_⟩
    · rwa [Command.eval_read_of_some hp, heval]
    · rw [Command.eval_read_of_some hp, heval]
      exact .cons rfl .nil
    · rw [Command.eval_read_of_some hp]
      exact fun _ => rfl
    · rintro ⟨-, other, hother, hnone⟩
      obtain rfl := Call.read.inj hother
      rw [hv] at hnone
      cases hnone
  -- It has none, so the policy decides. Under `preserve` the read is stray.
  | none =>
    have hp : p.values name = none := by rw [h.values, hv, Option.map_none]
    cases policy with
    | preserve =>
      have heval : (Call.read name).eval .preserve q = ([Double.zero], q) := by simp [eval, hv]
      refine ⟨?_, ?_, fun hstray => absurd ⟨rfl, name, rfl, hv⟩ hstray, fun _ => ?_⟩
      · rw [Command.eval_read_preserve hp, heval]
        exact h.fail _
      · rw [Command.eval_read_preserve hp, heval]
        exact .cons rfl .nil
      · rw [Command.eval_read_preserve hp]
    | zeroInit =>
      have heval : (Call.read name).eval .zeroInit q = ([Double.zero], q.set name Double.zero) := by
        simp [eval, hv]
      refine ⟨?_, ?_, fun _ => ?_, fun hstray => by cases hstray.1⟩
      · rw [Command.eval_read_zeroInit hp, heval]
        exact h.set name _
      · rw [Command.eval_read_zeroInit hp, heval]
        exact .cons rfl .nil
      · rw [Command.eval_read_zeroInit hp]
        rfl
    | error =>
      have heval : (Call.read name).eval .error q = ([], q) := by simp [eval, hv]
      refine ⟨?_, ?_, fun _ => ?_, fun hstray => by cases hstray.1⟩
      · rwa [Command.eval_read_error hp, heval]
      · rw [Command.eval_read_error hp, heval]
        exact .nil
      · rw [Command.eval_read_error hp]

/-- An operator, given by its symbol or by itself, does what it is evaluated to. -/
theorem agrees_operator (h : p.Agrees q) {op : Option Operator} {u v : Datum} {x y : Option Double}
    (hu : u.Means x) (hv : v.Means y) {made : Call Datum} {meant : Call (Option Double)}
    (hmade : (Command.call made).eval policy p = p.operate op u v)
    (hmeant : meant.eval policy q = (operate op x y, q)) (hprint : made.isPrint = false)
    (hread : ∀ name, meant ≠ .read name) : Agrees policy p q made meant := by
  obtain ⟨hstate, hdata⟩ := p.operate_of_means op hu hv
  refine ⟨?_, ?_, fun _ => ?_, fun hstray => absurd hstray (not_isStray hread)⟩
  · rw [hmade, hmeant, hstate]
    exact h
  · rw [hmade, hmeant, hprint]
    exact hdata
  · rw [hmade, hstate]

/-- Every call that stores and prints numbers only does what it is evaluated to. -/
theorem agrees_of_matches (h : p.Agrees q) {made : Call Datum} {meant : Call (Option Double)}
    (hmatch : made.Matches Datum.Means meant) (hnumeric : meant.stored? ≠ some none) :
    Agrees policy p q made meant := by
  cases hmatch with
  | constant value =>
    exact ⟨h, .cons rfl .nil, fun _ => rfl, fun hstray => absurd hstray (not_isStray (by simp))⟩
  | read name => exact agrees_read h name
  | @write name u v hu =>
    cases v with
    -- A write or print of a result that is no number is excluded.
    | none => exact absurd rfl hnumeric
    | some v =>
      refine ⟨?_, .nil, fun _ => rfl, fun hstray => absurd hstray (not_isStray (by simp))⟩
      show (p.set name u.content).Agrees (q.set name v)
      rw [Datum.content_of_number? hu]
      exact h.set name v
  | binaryOp symbol hu hv => exact agrees_operator h hu hv rfl rfl rfl (by simp)
  | apply op hu hv => exact agrees_operator h hu hv rfl rfl rfl (by simp)
  | @printNumber u v hu =>
    cases v with
    | none => exact absurd rfl hnumeric
    | some v =>
      have heval : (Command.call (.printNumber u)).eval policy p =
          p.print (v.toFixed 6 ++ "\n") := by
        rw [Command.eval, Datum.content_of_number? hu]
        exact p.format_number v
      refine ⟨?_, .nil, fun _ => ?_, fun hstray => absurd hstray (not_isStray (by simp))⟩
      · rw [heval]
        exact h.print _
      · rw [heval]
        rfl
  | printString text =>
    exact ⟨h.print text, .nil, fun _ => rfl, fun hstray => absurd hstray (not_isStray (by simp))⟩

/-- Under `preserve`, only a write gives a variable a value. -/
theorem isSome_eval_preserve {call : Call (Option Double)} (hnumeric : call.stored? ≠ some none)
    (p : CallState) (name : String) :
    ((call.eval .preserve p).2.values name).isSome = true ↔
      (p.values name).isSome = true ∨ ∃ v, call = .write name v := by
  cases call with
  | constant | binaryOp | apply | printString => simp [eval, CallState.print]
  | read other =>
    cases hv : p.values other <;> simp [eval, hv]
  | write other v =>
    cases v with
    | none => exact absurd rfl hnumeric
    | some value =>
      -- A variable gets a value by a write to its name alone.
      have hname : name = other ↔ ∃ v, Call.write other (some value) = .write name v :=
        ⟨fun h => ⟨some value, by rw [h]⟩, fun ⟨v, h⟩ => (Call.write.inj h).1.symm⟩
      rw [eval, CallState.isSome_set, Bool.or_eq_true, decide_eq_true_iff, or_comm, hname]
  | printNumber v => cases v <;> simp [eval, CallState.print]

end Call

/-- One more call reads early iff it reads a variable that nothing was written to, or a call before
    it does. -/
theorem readsEarly_append_singleton (done : List (Call Argument)) (call : Call Argument) :
    ReadsEarly (done ++ [call]) ↔
      ReadsEarly done ∨ ∃ name, call = .read name ∧ ∀ value, .write name value ∉ done := by
  constructor
  · rintro ⟨before, name, after, heq, hbefore⟩
    rcases exists_append_singleton_iff.mp ⟨after, heq⟩ with ⟨after, rfl⟩ | ⟨rfl, rfl⟩
    · exact .inl ⟨before, name, after, rfl, hbefore⟩
    · exact .inr ⟨name, rfl, hbefore⟩
  · rintro (⟨before, name, after, rfl, hbefore⟩ | ⟨name, rfl, hdone⟩)
    · obtain ⟨after, heq⟩ := exists_append_singleton_iff.mpr (.inl ⟨after, rfl⟩)
      exact ⟨before, name, after, heq, hbefore⟩
    · exact ⟨done, name, [], rfl, hdone⟩

/-! ### Sessions do what evaluating says -/

namespace Session

/-- `Tracks options done s e l d`: after the calls `done`, the session `s` mirrors effects that
    agree with the evaluation `e`, and its data stand for the numbers of `e`. The effects have
    failed iff a variable was read early under `preserve`. -/
structure Tracks (options : Options) (done : List (Call Argument)) (s : Session) (e : Evaluation)
    (l : Ledger) (d : Draft) : Prop where
  mirrors : Mirrors options s l d
  agrees : l.toEffects.Agrees e.toCallState
  numbers : List.Forall₂ (fun u v => u.number? = some v) l.data e.numbers
  assigned : options.reads = .preserve → ∀ name,
    (e.values name).isSome = true ↔ ∃ value, .write name value ∈ done
  fails : options.reads = .preserve ∧ ReadsEarly done → l.failure = some (.uninitializedLoad "")
  succeeds : ¬ (options.reads = .preserve ∧ ReadsEarly done) → l.failure = none

/-- A new session tracks an evaluation of no calls. -/
theorem tracks_empty (options : Options) :
    Tracks options [] { compilation := { options } } {} {} {} where
  mirrors := mirrors_empty options
  agrees := ⟨fun _ => rfl, rfl⟩
  numbers := .nil
  assigned := by simp
  fails := by
    rintro ⟨-, before, name, after, heq, -⟩
    simp at heq
  succeeds _ := rfl

variable {options : Options} {done : List (Call Argument)} {s s' : Session}
  {e : Evaluation} {l : Ledger} {d : Draft} {call : Call Argument} {meant : Call (Option Double)}

/-- A call is stray iff it reads its variable early under `preserve`. -/
theorem Tracks.isStray_iff (h : Tracks options done s e l d)
    (hmeant : call.traverse (·.number? e.numbers) = some meant) :
    meant.IsStray options.reads e.toCallState ↔
      options.reads = .preserve ∧ ∃ name, call = .read name ∧
        ∀ value, .write name value ∉ done := by
  refine and_congr_right fun hpolicy => exists_congr fun name => ?_
  rw [(Call.read_or_write_traverse hmeant name).1]
  refine and_congr_right fun _ => ?_
  have hassigned := h.assigned hpolicy name
  rw [← not_exists, ← hassigned, Bool.not_eq_true, Option.isSome_eq_false_iff,
    Option.isNone_iff_eq_none]

/-- A call whose numbers are found is evaluated. -/
theorem make_of_traverse (policy : ReadPolicy)
    (h : call.traverse (·.number? e.numbers) = some meant) :
    e.make policy call = some ⟨(meant.eval policy e.toCallState).2,
      e.numbers ++ (meant.eval policy e.toCallState).1⟩ := by
  rw [Evaluation.make, h]
  rfl

/-- A call that is made has its operands, and leaves what `Call.emit` leaves. -/
theorem exists_of_make (h : s.make call = some s') :
    ∃ made : Call Operand, call.traverse (·.operand? s.handles) = some made ∧
      s' = ⟨(made.emit s.compilation).2,
        s.handles ++ if made.isPrint then [] else handedOut (made.emit s.compilation).1⟩ := by
  obtain ⟨made, hmade, hs'⟩ := Option.bind_eq_some_iff.mp h
  exact ⟨made, hmade, (Option.some.inj hs').symm⟩

/-- `make` carries out the command of a call and forgets what a print hands out. -/
theorem Mirrors.make (h : Mirrors options s l d) (hs : s.make call = some s') :
    ∃ (made : Call Datum) (d' : Draft), call.traverse (·.datum? l.data) = some made ∧
      Mirrors options s' ⟨((Command.call made).eval options.reads l.toEffects).2,
        l.data ++ if made.isPrint then []
          else ((Command.call made).eval options.reads l.toEffects).1⟩ d' := by
  obtain ⟨emitted, hemitted, rfl⟩ := exists_of_make hs
  have hcommand : (Command.call call).traverse (·.operand? s.handles) = some (.call emitted) := by
    simp [Command.traverse, hemitted]
  obtain ⟨l', d', hl', h'⟩ := h.give (give_of_traverse hcommand)
  obtain ⟨meant, hmeant, rfl⟩ := Ledger.exists_of_give hl'
  obtain ⟨made, hmade, hcall⟩ := Option.bind_eq_some_iff.mp hmeant
  obtain rfl := Option.some.inj hcall
  refine ⟨made, d', hmade, ?_⟩
  -- As a command, a print hands out its result; as a call it does not.
  rw [(Call.isPrint_traverse hmade).trans (Call.isPrint_traverse hemitted).symm]
  cases hprint : emitted.isPrint with
  | true =>
    show Mirrors options ⟨_, s.handles ++ []⟩ ⟨_, l.data ++ []⟩ d'
    rw [List.append_nil, List.append_nil]
    exact h'.forget h.knows.types.length_eq
  | false => exact h'

/-- Every call that stores and prints numbers only keeps a session and an evaluation together. -/
theorem Tracks.make (h : Tracks options done s e l d) (hnumeric : call.IsNumeric)
    (hs : s.make call = some s') :
    ∃ e' l' d', e.make options.reads call = some e' ∧
      Tracks options (done ++ [call]) s' e' l' d' := by
  obtain ⟨made, d', hmade, hmirrors⟩ := h.mirrors.make hs
  obtain ⟨meant, hmeant, hmatch⟩ := Call.exists_traverse (Argument.exists_number h.numbers) hmade
  -- Only an integer constant has no number, and none is stored or printed.
  have hstored : meant.stored? ≠ some none := by
    rw [Call.stored?_traverse hmeant]
    intro hnone
    obtain ⟨a, ha, hnumber⟩ := Option.bind_eq_some_iff.mp hnone
    cases a with
    | constant value => cases hnumber
    | integer n => exact hnumeric n ha
    | result index => simp [Argument.number?] at hnumber
  have hagrees : Call.Agrees options.reads _ _ _ _ := Call.agrees_of_matches h.agrees hmatch hstored
  have hstray := h.isStray_iff hmeant
  refine ⟨_, _, d', make_of_traverse _ hmeant, hmirrors, hagrees.state,
    List.rel_append h.numbers hagrees.data, ?_, ?_, ?_⟩
  · intro hpolicy name
    dsimp only
    rw [hpolicy, Call.isSome_eval_preserve hstored, h.assigned hpolicy,
      (Call.read_or_write_traverse hmeant name).2]
    simp [exists_or, eq_comm]
  · rintro ⟨hpolicy, hearly⟩
    -- A run that failed before goes on to fail, and else this call is the first to read early.
    by_cases hdone : ReadsEarly done
    · exact Command.failure_eval (h.fails ⟨hpolicy, hdone⟩) _
    · have hread := ((readsEarly_append_singleton done call).mp hearly).resolve_left hdone
      show ((Command.call made).eval options.reads l.toEffects).2.failure = _
      rw [hagrees.stray (hstray.mpr ⟨hpolicy, hread⟩)]
      exact Effects.failure_fail (h.succeeds fun hboth => hdone hboth.2) _
  · intro hearly
    rw [readsEarly_append_singleton] at hearly
    have hkept := hagrees.failure fun h => hearly ⟨(hstray.mp h).1, .inr (hstray.mp h).2⟩
    exact hkept.trans (h.succeeds fun hboth => hearly ⟨hboth.1, .inl hboth.2⟩)

/-- Calls in a row keep them together. -/
theorem Tracks.run {calls : List (Call Argument)} (h : Tracks options done s e l d)
    (hnumeric : ∀ call ∈ calls, call.IsNumeric) (hs : calls.foldlM Session.make s = some s') :
    ∃ e' l' d', calls.foldlM (Evaluation.make options.reads) e = some e' ∧
      Tracks options (done ++ calls) s' e' l' d' := by
  induction calls generalizing done s e l d with
  | nil =>
    obtain rfl := Option.some.inj hs
    exact ⟨e, l, d, rfl, by rwa [List.append_nil]⟩
  | cons call calls ih =>
    rw [List.foldlM_cons] at hs
    obtain ⟨s₁, hs₁, hs'⟩ := Option.bind_eq_some_iff.mp hs
    -- One call by `Tracks.make`, and the others from where it leads.
    obtain ⟨e₁, l₁, d₁, he₁, h₁⟩ := h.make (hnumeric call (by simp)) hs₁
    obtain ⟨e', l', d', he', h'⟩ :=
      ih h₁ (fun other hother => hnumeric other (by simp [hother])) hs'
    refine ⟨e', l', d', ?_, by rwa [List.append_assoc] at h'⟩
    rw [List.foldlM_cons, he₁]
    exact he'

end Session

/-! ### What a program shows -/

/-- The instruction whose result an operand is. -/
def Operand.index? : Operand → Option Nat
  | .inst i => some i
  | _ => none

/-- The name of the slot of a variable. -/
def Compilation.slotName? (c : Compilation) (name : String) : Option String := do
  let symbol ← c.interner.find? name
  let slot ← c.slots.get? (← c.slots.lookup? symbol)
  (← c.main.instructions[← slot.ptr.index?]?).name

/-- `x.Shows c p`: the exit code is zero, the output is that of `p`, and the slots at the end are
    those of the variables that have a value, one for each. -/
structure Execution.Shows (x : Execution) (c : Compilation) (p : CallState) : Prop where
  exitCode : x.exitCode = 0
  stdout : x.stdout = p.output
  slots : ∀ entry, entry ∈ x.slots ↔ ∃ name value slot, p.values name = some value ∧
    c.slotName? name = some slot ∧ entry = (slot, .double value)
  nodup : (x.slots.map (·.1)).Nodup
  named : ∀ name value, p.values name = some value → ∃ slot, c.slotName? name = some slot
  distinct : ∀ {u v slot : String}, c.slotName? u = some slot → c.slotName? v = some slot → u = v

/-- The name of a variable's slot is the one that the draft gives it. -/
theorem Compilation.Follows.slotName? {c : Compilation} {options : Options} {d : Draft}
    (hc : c.Follows options d) (name : String) :
    c.slotName? name = (d.lookup? name).map fun v => d.slotName v.name := by
  cases hv : d.lookup? name with
  | none =>
    rw [Compilation.slotName?, hc.find?_interner_eq_none hv]
    rfl
  | some v =>
    -- From the name to its symbol, from there to the slot, and from there to the instruction.
    obtain ⟨i, hi, hvar⟩ := hc.find?_interner_eq_some hv
    obtain ⟨warned, hslot, -⟩ := hc.slots i v hvar
    obtain ⟨inst, hinst, hname⟩ := hc.valid.getElem?_slot (mem_of_lookup? hv)
    have hlookup : c.slots.lookup? i = some i := by
      rw [hc.lookup?_slots, if_pos (List.getElem?_eq_some_iff.mp hvar).1]
    have hmain : c.main.instructions[v.slot]? = some inst := by
      rw [hc.main, instructions_body]
      exact hinst
    simp [Compilation.slotName?, hi, hlookup, hslot, Operand.index?, hmain, hname]
namespace Session.Tracks

variable {options : Options} {done : List (Call Argument)} {s : Session}
  {e : Evaluation} {l : Ledger} {d : Draft}

/-- The variables that the draft has written are those that have a value. -/
theorem written (h : Tracks options done s e l d) (name : String) :
    d.isWritten name = (e.values name).isSome := by
  rw [h.mirrors.knows.written, h.agrees.values, Option.isSome_map]

/-- Without an early read, running the draft leads to the values and the output of the
    evaluation. -/
theorem exists_reaches (h : Tracks options done s e l d)
    (hearly : ¬ (options.reads = .preserve ∧ ReadsEarly done)) {m : Module} {b : Body}
    (hd : d.Within m b) : ∃ st, Reaches m b d st e.current e.output := by
  cases h.mirrors.performs hd with
  | fails hfailure _ =>
    rw [h.succeeds hearly] at hfailure
    cases hfailure
  | @runs st _ hrun _ =>
    -- Numbers are all that is in memory, and a slot that was not written stays out of it.
    have hmemory : l.memory = d.stored e.current := by
      funext name
      rw [Effects.memory, h.agrees.values, stored, h.written]
      cases hv : e.values name <;> simp [CallState.current, hv, Content.value]
    rw [hmemory, h.agrees.output] at hrun
    refine ⟨st, hrun.reaches fun {name} hw => ?_⟩
    rw [h.written, Option.isSome_eq_false_iff, Option.isNone_iff_eq_none] at hw
    rw [CallState.current, hw, Option.getD_none]

/-- With an early read under `preserve`, running the draft fails in a load. -/
theorem exists_exec_eq_error (h : Tracks options done s e l d)
    (hearly : options.reads = .preserve ∧ ReadsEarly done) {m : Module} {b : Body}
    (hd : d.Within m b) : ∃ slot, d.exec m b = .error (.uninitializedLoad slot) := by
  cases h.mirrors.performs hd with
  | runs hfailure _ _ =>
    rw [h.fails hearly] at hfailure
    cases hfailure
  | @fails error hfailure hexec =>
    rw [h.fails hearly, Option.some.injEq] at hfailure
    cases error with
    | uninitializedLoad slot => exact ⟨slot, hexec⟩
    | _ => cases hfailure

/-- A variable has a value in the evaluation iff the draft has written it. -/
theorem values_iff (h : Tracks options done s e l d) {name : String} {value : Double} :
    e.values name = some value ↔
      ∃ v ∈ d.vars, v.written = true ∧ v.name = name ∧ e.current name = value := by
  have hvalid := h.mirrors.follows.valid
  have hwritten := h.written name
  constructor
  · intro hvalue
    rw [hvalue, Option.isSome_some, isWritten] at hwritten
    -- What has a value was written, and so it is declared.
    cases hv : d.lookup? name with
    | none => simp [hv] at hwritten
    | some v =>
      rw [hv] at hwritten
      refine ⟨v, mem_of_lookup? hv, hwritten, name_of_lookup? hv, ?_⟩
      rw [CallState.current, hvalue, Option.getD_some]
  · rintro ⟨v, hv, hvwritten, rfl, rfl⟩
    rw [isWritten_of_lookup? (hvalid.lookup?_eq hv), hvwritten] at hwritten
    obtain ⟨value, hvalue⟩ := Option.isSome_iff_exists.mp hwritten.symm
    rw [CallState.current, hvalue, Option.getD_some]

/-- A machine that the draft leads to shows what was evaluated. -/
theorem shows (h : Tracks options done s e l d) {m : Module} {b : Body} {st : Machine}
    (hd : d.Within m b) (hst : Reaches m b d st e.current e.output) :
    Execution.Shows ⟨0, st.output, st.slots b⟩ s.compilation e.toCallState := by
  have hvalid := h.mirrors.follows.valid
  have hslot : ∀ {v : Variable}, v ∈ d.vars →
      s.compilation.slotName? v.name = some (d.slotName v.name) := fun hv => by
    rw [h.mirrors.follows.slotName?, hvalid.lookup?_eq hv]
    rfl
  -- The slots at the end are those of the written variables, whose names differ.
  refine ⟨rfl, hst.output, fun entry => ?_, hst.nodup_slots hd h.mirrors.names,
    fun name value hvalue => ?_, ?_⟩
  · rw [hst.mem_slots hd]
    constructor
    · rintro ⟨v, hv, hwritten, rfl⟩
      exact ⟨v.name, _, _, h.values_iff.mpr ⟨v, hv, hwritten, rfl, rfl⟩, hslot hv, rfl⟩
    · rintro ⟨name, value, slot, hvalue, hname, rfl⟩
      obtain ⟨v, hv, hwritten, rfl, rfl⟩ := h.values_iff.mp hvalue
      obtain rfl := Option.some.inj ((hslot hv).symm.trans hname)
      exact ⟨v, hv, hwritten, rfl⟩
  · obtain ⟨v, hv, -, rfl, -⟩ := h.values_iff.mp hvalue
    exact ⟨_, hslot hv⟩
  · intro u v slot hu hv
    rw [h.mirrors.follows.slotName?] at hu hv
    obtain ⟨x, hx, rfl⟩ := Option.map_eq_some_iff.mp hu
    obtain ⟨y, hy, hslot⟩ := Option.map_eq_some_iff.mp hv
    rw [← name_of_lookup? hx, ← name_of_lookup? hy,
      hvalid.eq_of_slotName_eq h.mirrors.names (mem_of_lookup? hx) (mem_of_lookup? hy) hslot.symm]

end Session.Tracks

/-- Calls that store and print numbers only mean what evaluating them says. All of them can be
    evaluated, a number is handed out when one is in the evaluation, and the program that they build
    can be finished. Its run fails if the reads are kept and a variable is read before anything is
    written to it, by the load from a slot that was not stored to. Otherwise it ends and shows what
    was evaluated. -/
theorem run_session {options : Options} {calls : List (Call Argument)} {s : Session}
    (hnumeric : ∀ call ∈ calls, call.IsNumeric) (h : Session.run options calls = some s) :
    ∃ e c, evaluate options.reads calls = some e ∧ e.numbers.length = s.handles.length ∧
      Emit.finish s.compilation = (.ok (), c) ∧
      (options.reads = .preserve ∧ ReadsEarly calls →
        ∃ slot, c.module.run "main" = .error (.uninitializedLoad slot)) ∧
      (¬ (options.reads = .preserve ∧ ReadsEarly calls) →
        ∃ x, c.module.run "main" = .ok x ∧ x.Shows s.compilation e.toCallState) := by
  obtain ⟨e, l, d, he, ht⟩ := (Session.tracks_empty options).run hnumeric h
  rw [List.nil_append] at ht
  have hfollows := ht.mirrors.follows
  obtain ⟨c, hc, hmodule⟩ := hfollows.finish
  have hd := d.within_finish options.moduleName
  have hlength := ht.mirrors.knows.types.length_eq.trans ht.numbers.length_eq
  -- Either way the program is the code of the draft and a return behind it.
  refine ⟨e, c, he, hlength.symm, hc, fun hearly => ?_, fun hearly => ?_⟩
  · obtain ⟨slot, hslot⟩ := ht.exists_exec_eq_error hearly hd
    refine ⟨slot, ?_⟩
    rw [hmodule, hfollows.valid.run_finish, hslot]
    rfl
  · obtain ⟨st, hst⟩ := ht.exists_reaches hearly hd
    refine ⟨⟨0, st.output, st.slots d.finish.body⟩, ?_, ht.shows hd hst⟩
    rw [hmodule, hfollows.valid.run_finish, hst.exec]
    rfl

/-- A value is read, kept over a write of its variable and used twice. Two operators are refused in
    between. -/
theorem run_session_sample :
    let one : Double := ⟨0x3FF0000000000000⟩
    let calls : List (Call Argument) :=
      [.write "x" (.constant one), .read "x", .write "x" (.constant .zero),
      .binaryOp (.result 0) (.result 0) "<", .apply (.result 1) (.result 1) .equality,
      .binaryOp (.result 1) (.integer 7) "+", .binaryOp (.result 1) (.result 0) "-",
      .printNumber (.result 2), .printString "x", .write "y" (.result 1)]
    ∃ s, (∀ call ∈ calls, call.IsNumeric) ∧ Session.run ⟨"top", .preserve⟩ calls = some s ∧
      ¬ (ReadPolicy.preserve = .preserve ∧ ReadsEarly calls) ∧
      ∃ e c x, evaluate .preserve calls = some e ∧ e.output = "-1.000000\nx\n" ∧
        Emit.finish s.compilation = (.ok (), c) ∧ c.module.run "main" = .ok x ∧
        x.Shows s.compilation e.toCallState := by
  intro one calls
  have hnumeric : ∀ call ∈ calls, call.IsNumeric := by
    simp [calls, Call.IsNumeric, Call.stored?]
  -- The one read is the second call, right behind the write of its variable.
  have hearly : ¬ ReadsEarly calls := by
    rintro ⟨_ | ⟨first, _ | ⟨second, before⟩⟩, name, after, heq, hbefore⟩
    · simp [calls] at heq
    · obtain ⟨rfl, hread⟩ := List.cons.inj heq
      obtain rfl := Call.read.inj (List.cons.inj hread).1
      exact hbefore (.constant one) (by simp)
    · have hmem : Call.read name ∈ calls.drop 2 := by simp [heq]
      simp [calls] at hmem
  obtain ⟨s, hs⟩ := Option.isSome_iff_exists.mp
    (show (Session.run ⟨"top", .preserve⟩ calls).isSome = true by decide +kernel)
  obtain ⟨e, c, he, -, hc, -, hrun⟩ := run_session hnumeric hs
  obtain ⟨x, hx, hshows⟩ := hrun fun h => hearly h.2
  refine ⟨s, hnumeric, hs, fun h => hearly h.2, e, c, x, he, ?_, hc, hx, hshows⟩
  have houtput : (evaluate .preserve calls).map (·.output) = some "-1.000000\nx\n" := by
    decide +kernel
  rw [he] at houtput
  exact Option.some.inj houtput

/-- An integer constant cannot be printed as a number: the program is finished, but its run
    fails. -/
theorem run_printNumber_integer :
    ∃ s c, Session.run {} [.printNumber (.integer 7)] = some s ∧
      Emit.finish s.compilation = (.ok (), c) ∧
      c.module.run "main" = .error (.typeMismatch .double .i32) :=
  ⟨_, _, rfl, rfl, by decide +kernel⟩

end Straightline
