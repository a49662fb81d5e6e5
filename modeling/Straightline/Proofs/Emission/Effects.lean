import Straightline.Proofs.Emission.Commands
import Straightline.Proofs.Execution.Formatting

/-!
# The effects of commands

What the program of some commands does when it is run, said without the program: it is computed
command by command, with data in place of operands. Where the code says double, the datum may still
be a whole number, since what a print hands out can be stored.

* `Command.eval` is what a command hands out and does. After a failure, only the types of the data
  matter.
* `Draft.Knows` says that the types in a draft are those of the data, and `Draft.Performs` that
  running the draft does what was computed. There is one `knows_` and one `performs_` lemma for each
  kind of command.
* `Session.Mirrors` ties a session to what was computed, and every command keeps it.
* `Session.Mirrors.observed_run`: the finished program shows what was computed.
-/

namespace Straightline

open Draft

/-! ### Data -/

/-- What an operand stands for when the program runs. -/
inductive Datum where
  | truth (value : Bool)
  | number (value : Double)
  /-- A whole number: a constant, or what a print hands out. -/
  | count (value : Int32)
  /-- A whole number that was read from a variable. In the code it is a double. -/
  | mistyped (value : Int32)
  deriving DecidableEq

/-- What a variable can hold. -/
inductive Content where
  | number (value : Double)
  | count (value : Int32)
  deriving DecidableEq

namespace Content

def value : Content → Value
  | number v => .double v
  | count n => .int n

/-- What is handed out when a variable is read. -/
def datum : Content → Datum
  | number v => .number v
  | count n => .mistyped n

end Content

namespace Datum

/-- The type in the code. -/
def ty : Datum → Ty
  | truth _ => .i1
  | number _ => .double
  | count _ => .i32
  | mistyped _ => .double

/-- The type in the code where a double is asked for: only a truth value is widened. -/
def wideTy : Datum → Ty
  | count _ => .i32
  | _ => .double

def value : Datum → Value
  | truth t => .bool t
  | number v => .double v
  | count n => .int n
  | mistyped n => .int n

/-- What the datum is where a double is asked for. -/
def content : Datum → Content
  | truth t => .number (Double.ofBool t)
  | number v => .number v
  | count n => .count n
  | mistyped n => .count n

theorem ty_ne_void (u : Datum) : u.ty ≠ .void := by
  cases u <;> simp [ty]

theorem wideTy_ne_void (u : Datum) : u.wideTy ≠ .void := by
  cases u <;> simp [wideTy]

end Datum

@[simp] theorem Content.value_datum (x : Content) : x.datum.value = x.value := by
  cases x <;> rfl

@[simp] theorem Content.ty_datum (x : Content) : x.datum.ty = .double := by
  cases x <;> rfl

namespace Operator

/-- The result of an operator. -/
def datum : Operator → Double → Double → Datum
  | arithmetic op, x, y => .number (op.eval x y)
  | comparison condition, x, y => .truth (condition.eval x y)

theorem ty_datum (op : Operator) (x y : Double) : (op.datum x y).ty = op.ty := by
  cases op <;> rfl

/-- What an operator makes of two values, the left one first. -/
def compute (op : Operator) (u v : Value) : Except RunError Datum := do
  return op.datum (← u.asDouble) (← v.asDouble)

/-- What `compute` gives has the type of the operator. -/
theorem ty_of_compute {op : Operator} {u v : Value} {w : Datum} (h : op.compute u v = .ok w) :
    w.ty = op.ty := by
  obtain ⟨x, -, h⟩ := bind_eq_ok_iff.mp h
  obtain ⟨y, -, h⟩ := bind_eq_ok_iff.mp h
  obtain rfl := Except.ok.inj h
  exact op.ty_datum x y

/-- A machine at the instruction of an operator does what `compute` does. -/
theorem step_kind_eq (op : Operator) {s : Machine} {x y : Operand} {u v : Value}
    (hx : s.eval x = .ok u) (hy : s.eval y = .ok v) (m : Module) (b : Body) (i : Nat) :
    s.step m b i (op.kind x y) =
      op.compute u v >>= fun w => .ok (.next (s.setRegister i w.value)) := by
  unfold compute
  cases op <;>
  · rw [kind, Machine.step, Machine.evalDouble, hx, Machine.evalDouble, hy]
    show (u.asDouble >>= fun _ => v.asDouble >>= _) =
      ((u.asDouble >>= fun _ => v.asDouble >>= _) >>= _)
    cases u.asDouble <;> [rfl; cases v.asDouble <;> rfl]

end Operator

/-! ### Evaluation -/

/-- An error without the name of the slot. -/
def RunError.unnamed : RunError → RunError
  | uninitializedLoad _ => uninitializedLoad ""
  | e => e

/-- What commands have done so far: what the variables hold, what was printed, and why the run
    failed if it did. -/
structure Effects where
  values : String → Option Content := fun _ => none
  output : String := ""
  failure : Option RunError := none

namespace Effects

variable (p : Effects)

/-- Store to a variable. -/
def set (name : String) (x : Content) : Effects :=
  { p with values := fun other => if other = name then some x else p.values other }

/-- The run fails here, unless it has failed before. -/
def fail (e : RunError) : Effects := { p with failure := some (p.failure.getD e.unnamed) }

/-- What is in the slots of the variables. -/
def memory (name : String) : Option Value := (p.values name).map Content.value

/-- `set` changes the memory of one variable. -/
theorem memory_set (name : String) (x : Content) :
    (p.set name x).memory = fun other => if other = name then some x.value else p.memory other := by
  funext other
  unfold memory set
  dsimp only
  split <;> rfl

/-- After `set name`, this variable holds something, and any other that did. -/
theorem isSome_set (name : String) (x : Content) (other : String) :
    ((p.set name x).values other).isSome = (decide (other = name) || (p.values other).isSome) := by
  by_cases h : other = name <;> simp [set, h]

/-- `fail` sets the failure of a run that has none. -/
theorem failure_fail {p : Effects} (h : p.failure = none) (e : RunError) :
    (p.fail e).failure = some e.unnamed := by
  simp [fail, h]

/-- Print a text. What is handed out is how many bytes were written. -/
def print (text : String) : List Datum × Effects :=
  ([.count (Int32.ofNat text.utf8ByteSize)], { p with output := p.output ++ text })

/-- Print a value with a format. No value is a text, so the format needs no constants. -/
def format (format : String) (v : Value) : List Datum × Effects :=
  match Module.render { name := "" } format format.toList [v] with
  | .ok text => p.print text
  | .error e => ([.count 0], p.fail e)

/-- Apply an operator. It is refused if a whole number is seen in the code, and fails if one comes
    up in the run. -/
def operate (op : Option Operator) (u v : Datum) : List Datum × Effects :=
  match op with
  | none => ([], p)
  | some op =>
    if u.wideTy = .double ∧ v.wideTy = .double then
      match op.compute u.content.value v.content.value with
      | .ok w => ([w], p)
      | .error e => ([op.datum .zero .zero], p.fail e)
    else ([], p)

end Effects

/-- What a command hands out and does. A command that fails hands out nothing and does nothing. -/
def Command.eval (policy : ReadPolicy) (p : Effects) : Command Datum → List Datum × Effects
  | call (.constant value) => ([.number value], p)
  | call (.read name) =>
    match p.values name, policy with
    | some x, _ => ([x.datum], p)
    | none, .preserve => ([.number .zero], p.fail (.uninitializedLoad ""))
    | none, .zeroInit => ([.number .zero], p.set name (.number .zero))
    | none, .error => ([], p)
  | call (.write name u) => ([], p.set name u.content)
  | call (.binaryOp u v symbol) => p.operate (Operator.ofText? symbol) u v
  | call (.apply u v op) => p.operate op.operator? u v
  | call (.printNumber u) => p.format "%f\n" u.content.value
  | call (.printString text) => p.print (text ++ "\n")
  | resolve _ => ([], p)
  | printFormatted format u => p.format format u.value

namespace Command

variable {policy : ReadPolicy} {p : Effects} {name : String}

/-- A read of a variable that holds something hands it out. -/
theorem eval_read_of_some {x : Content} (h : p.values name = some x) :
    (call (.read name)).eval policy p = ([x.datum], p) := by
  simp [eval, h]

/-- Under `preserve`, a read of any other variable fails when the program runs. -/
theorem eval_read_preserve (h : p.values name = none) :
    (call (.read name)).eval .preserve p = ([.number .zero], p.fail (.uninitializedLoad "")) := by
  simp [eval, h]

/-- Under `zeroInit`, it stores zero and hands it out. -/
theorem eval_read_zeroInit (h : p.values name = none) :
    (call (.read name)).eval .zeroInit p = ([.number .zero], p.set name (.number .zero)) := by
  simp [eval, h]

/-- Under `error`, it hands out nothing. -/
theorem eval_read_error (h : p.values name = none) :
    (call (.read name)).eval .error p = ([], p) := by
  simp [eval, h]

end Command

namespace Effects

variable {p : Effects} {e : RunError}

/-- `fail` keeps the failure of a run that has one. -/
theorem failure_fail_of_some (h : p.failure = some e) (e' : RunError) :
    (p.fail e').failure = some e := by
  simp [fail, h]

/-- `format` keeps a failure. -/
theorem failure_format (h : p.failure = some e) (text : String) (v : Value) :
    (p.format text v).2.failure = some e := by
  unfold format
  split
  · exact h
  · exact failure_fail_of_some h _

/-- `format` changes no variable. -/
theorem values_format (text : String) (v : Value) : (p.format text v).2.values = p.values := by
  unfold format
  split <;> rfl

/-- `operate` is refused, has a result, or fails. -/
theorem operate_cases (p : Effects) (op : Option Operator) (u v : Datum) :
    p.operate op u v = ([], p) ∨
      ∃ w, p.operate op u v = ([w], p) ∨ ∃ e, p.operate op u v = ([w], p.fail e) := by
  unfold operate
  split
  · exact .inl rfl
  · split
    · split
      · exact .inr ⟨_, .inl rfl⟩
      · exact .inr ⟨_, .inr ⟨_, rfl⟩⟩
    · exact .inl rfl

/-- `operate` keeps a failure. -/
theorem failure_operate (h : p.failure = some e) (op : Option Operator) (u v : Datum) :
    (p.operate op u v).2.failure = some e := by
  rcases p.operate_cases op u v with heq | ⟨w, heq | ⟨e', heq⟩⟩
  · rwa [heq]
  · rwa [heq]
  · rw [heq]
    exact failure_fail_of_some h e'

/-- `operate` changes no variable. -/
theorem values_operate (op : Option Operator) (u v : Datum) :
    (p.operate op u v).2.values = p.values := by
  rcases p.operate_cases op u v with heq | ⟨w, heq | ⟨e', heq⟩⟩ <;> rw [heq]
  rfl

/-- If `operate` hands out nothing, it does nothing. -/
theorem operate_eq_nil {op : Option Operator} {u v : Datum} (h : (p.operate op u v).1 = []) :
    p.operate op u v = ([], p) := by
  rcases p.operate_cases op u v with heq | ⟨w, heq | ⟨e', heq⟩⟩
  · exact heq
  · rw [heq] at h
    cases h
  · rw [heq] at h
    cases h

end Effects

namespace Command

variable {policy : ReadPolicy} {p : Effects}

/-- A run that failed has the same failure after every command. -/
theorem failure_eval {e : RunError} (h : p.failure = some e) (command : Command Datum) :
    (command.eval policy p).2.failure = some e := by
  cases command with
  | call call =>
    cases call with
    | constant | printString => exact h
    | write name u => exact h
    | read name =>
      cases hv : p.values name with
      | some x => rwa [eval_read_of_some hv]
      | none =>
        cases policy with
        -- The load fails, but only the first failure counts.
        | preserve =>
          rw [eval_read_preserve hv]
          exact Effects.failure_fail_of_some h _
        | zeroInit =>
          rw [eval_read_zeroInit hv]
          exact h
        | error => rwa [eval_read_error hv]
    | binaryOp u v symbol => exact Effects.failure_operate h _ u v
    | apply u v op => exact Effects.failure_operate h _ u v
    | printNumber u => exact Effects.failure_format h _ _
  | resolve name => exact h
  | printFormatted format u => exact Effects.failure_format h _ _

/-- If a read or an operator hands out nothing, it does nothing. -/
theorem eval_eq_nil {command : Command Datum} (hcommand : command.isFallible = true)
    (h : (command.eval policy p).1 = []) : command.eval policy p = ([], p) := by
  -- Only a read under `error` and a refused operator hand out nothing.
  cases command with
  | call call =>
    cases call with
    | read name =>
      cases hv : p.values name with
      | some x =>
        rw [eval_read_of_some hv] at h
        cases h
      | none =>
        cases policy with
        | preserve =>
          rw [eval_read_preserve hv] at h
          cases h
        | zeroInit =>
          rw [eval_read_zeroInit hv] at h
          cases h
        | error => exact eval_read_error hv
    | binaryOp u v symbol => exact Effects.operate_eq_nil h
    | apply u v op => exact Effects.operate_eq_nil h
    | constant | write | printNumber | printString => cases hcommand
  | resolve | printFormatted => cases hcommand

end Command

/-! ### Types in the code -/

namespace Draft

/-- `d.Knows p xs us`: in `d`, the operands `xs` have the types of the data `us`, and the variables
    that hold something in `p` are written. -/
structure Knows (d : Draft) (p : Effects) (xs : List Operand) (us : List Datum) : Prop where
  types : List.Forall₂ (fun x u => d.body.typeOf x = u.ty) xs us
  written : ∀ name, d.isWritten name = (p.values name).isSome

variable {d : Draft} {p : Effects} {x y : Operand} {u v : Datum}

/-- `asDouble` gives an operand of the type `u.wideTy`. -/
theorem typeOf_asDouble (h : d.body.typeOf x = u.ty) :
    (d.asDouble x).2.body.typeOf (d.asDouble x).1 = u.wideTy := by
  by_cases htruth : u.ty = .i1
  · rw [asDouble_of_i1 (h.trans htruth), typeOf_next]
    cases u <;> simp_all [Datum.ty, Datum.wideTy]
  · rw [asDouble_of_ne (h ▸ htruth), h]
    cases u <;> simp_all [Datum.ty, Datum.wideTy]

/-- Two operands that are made doubles in a row have the types `u.wideTy` and `v.wideTy`. -/
theorem typeOf_asDoubles (hx : d.body.typeOf x = u.ty) (hy : d.body.typeOf y = v.ty) :
    ((d.asDouble x).2.asDouble y).2.body.typeOf (d.asDouble x).1 = u.wideTy ∧
      ((d.asDouble x).2.asDouble y).2.body.typeOf ((d.asDouble x).2.asDouble y).1 = v.wideTy := by
  have hleft := typeOf_asDouble hx
  have hright : (d.asDouble x).2.body.typeOf y = v.ty := by
    rw [(grows_asDouble d x).typeOf (hy ▸ v.ty_ne_void), hy]
  refine ⟨?_, typeOf_asDouble hright⟩
  rw [(grows_asDouble _ y).typeOf (hleft ▸ u.wideTy_ne_void), hleft]

/-- `operate` changes no variable. -/
theorem vars_operate (d : Draft) (op : Option Operator) (x y : Operand) :
    (d.operate op x y).1.vars = d.vars := by
  cases op with
  | none => rfl
  | some op =>
    unfold operate
    dsimp only
    split <;> simp

variable (hw : ∀ name, d.isWritten name = (p.values name).isSome)

include hw

/-- What `operate` adds has the types of what it is evaluated to. -/
theorem knows_operate (op : Option Operator) (hx : d.body.typeOf x = u.ty)
    (hy : d.body.typeOf y = v.ty) :
    (d.operate op x y).1.Knows (p.operate op u v).2 (d.operate op x y).2 (p.operate op u v).1 := by
  refine ⟨?_, fun name => ?_⟩
  · cases op with
    | none => exact .nil
    | some op =>
      obtain ⟨hleft, hright⟩ := typeOf_asDoubles hx hy
      -- The code is refused iff one of the data is a whole number.
      by_cases htypes : u.wideTy = .double ∧ v.wideTy = .double
      · rw [operate_of_typeOf (by rwa [hleft, hright]), Effects.operate, if_pos htypes]
        have hnext : (d.apply op x y).2.body.typeOf (d.apply op x y).1 = op.ty :=
          typeOf_next _ _ _ _
        split
        · next w hw => exact .cons (hnext.trans (op.ty_of_compute hw).symm) .nil
        · exact .cons (hnext.trans (op.ty_datum _ _).symm) .nil
      · rw [operate_of_not_typeOf (by rwa [hleft, hright]), Effects.operate, if_neg htypes]
        exact .nil
  · rw [isWritten_congr (vars_operate d op x y), Effects.values_operate, hw]

/-- A call of `printf` has the type of a count. -/
theorem knows_printf (format : String) (x : Operand) (v : Value) :
    (d.printf format x).Knows (p.format format v).2 [d.next] (p.format format v).1 := by
  refine ⟨?_, fun name => ?_⟩
  · have hnext : (d.printf format x).body.typeOf d.next = .i32 :=
      typeOf_next { d.constant format with declaresPrintf := true } _ _ _
    unfold Effects.format
    split
    · exact .cons hnext .nil
    · exact .cons hnext .nil
  · rw [isWritten_congr (vars_printf d format x), Effects.values_format, hw]

/-- What a read adds has the type of what it is evaluated to, under each policy. -/
theorem knows_read (policy : ReadPolicy) (name : String) :
    ((Command.call (.read name)).draft policy d).1.Knows
      ((Command.call (.read name)).eval policy p).2
      ((Command.call (.read name)).draft policy d).2
        ((Command.call (.read name)).eval policy p).1 := by
  have hnext : (d.read policy name).2.body.typeOf (d.read policy name).1 = .double :=
    typeOf_next _ _ _ _
  cases hv : p.values name with
  -- The variable holds something: it is written, and nothing but the load is added.
  | some x =>
    have hwritten : d.isWritten name = true := by rw [hw, hv]; rfl
    rw [Command.draft_read fun _ => hwritten, Command.eval_read_of_some hv]
    refine ⟨.cons (hnext.trans x.ty_datum.symm) .nil, fun other => ?_⟩
    rw [← hw, read, prepare_of_written (by rwa [isWritten_declare]), isWritten_push,
      isWritten_declare]
  -- It holds nothing, so the policy decides.
  | none =>
    have hwritten : d.isWritten name = false := by rw [hw, hv]; rfl
    cases policy with
    | preserve =>
      rw [Command.draft_read (by simp), Command.eval_read_preserve hv]
      refine ⟨.cons hnext .nil, fun other => ?_⟩
      rw [isWritten_read (by simp), hw]
      rfl
    | zeroInit =>
      rw [Command.draft_read (by simp), Command.eval_read_zeroInit hv]
      refine ⟨.cons hnext .nil, fun other => ?_⟩
      rw [isWritten_read_zeroInit, Effects.isSome_set, hw]
    | error =>
      rw [Command.draft_read_of_refused rfl hwritten, Command.eval_read_error hv]
      exact ⟨.nil, fun other => by rw [isWritten_declare, hw]⟩

end Draft

/-- What `Command.draft` adds has the types of what `Command.eval` gives. -/
theorem Command.knows_draft {d : Draft} {p : Effects} (policy : ReadPolicy) {made : Command Operand}
    {meant : Command Datum} (hmatch : made.Matches (fun x u => d.body.typeOf x = u.ty) meant)
    (hw : ∀ name, d.isWritten name = (p.values name).isSome) :
    (made.draft policy d).1.Knows (meant.eval policy p).2 (made.draft policy d).2
      (meant.eval policy p).1 := by
  -- One case per command; reads, operators and prints have their lemmas above.
  cases hmatch with
  | call hmatch =>
    cases hmatch with
    | constant value => exact ⟨.cons rfl .nil, hw⟩
    | read name => exact knows_read hw policy name
    | @write name x u hx =>
      refine ⟨.nil, fun other => ?_⟩
      rw [draft, eval, isWritten_write, Effects.isSome_set, hw]
    | binaryOp symbol hx hy => exact knows_operate hw _ hx hy
    | apply op hx hy => exact knows_operate hw _ hx hy
    | @printNumber x u hx =>
      have hw' : ∀ name, (d.asDouble x).2.isWritten name = (p.values name).isSome := fun name => by
        rw [isWritten_congr (vars_asDouble d x), hw]
      exact knows_printf hw' _ _ _
    | printString text =>
      refine ⟨.cons
        (typeOf_next { (d.constant text).constant "%s\n" with declaresPrintf := true } _ _ _) .nil,
        fun name => ?_⟩
      rw [draft, isWritten_congr (vars_printString d text), hw]
      rfl
  | resolve name => exact ⟨.nil, fun other => by rw [draft, isWritten_declare, hw]; rfl⟩
  | printFormatted format hx => exact knows_printf hw _ _ _

/-! ### Running what commands add -/

namespace Draft

variable {m : Module} {b : Body} {d : Draft} {s : Machine}

/-- `asDouble` runs, and its operand has the value of `u.content`. -/
theorem Runs.asDouble {values : String → Option Value} {output : String}
    (h : Runs m b d s values output) {x : Operand} {u : Datum} (hx : d.body.typeOf x = u.ty)
    (hu : s.eval x = .ok u.value) :
    ∃ s', Runs m b (d.asDouble x).2 s' values output ∧
      s'.eval (d.asDouble x).1 = .ok u.content.value := by
  cases u with
  -- Only a truth value needs an instruction, and the rest passes as it is.
  | truth t =>
    rw [asDouble_of_i1 hx]
    have hstep := Machine.step_widen m b d.instructions.size hu (Value.widen_bool t)
    refine ⟨_, h.push (.widen x) .double (some "booltmp") rfl hstep rfl h.output, ?_⟩
    rw [next, Machine.eval, Machine.getElem?_setRegister, if_pos rfl]
    rfl
  | number | count | mistyped =>
    rw [asDouble_of_ne (by simp [hx, Datum.ty])]
    exact ⟨s, h, hu⟩

/-- `d.Performs m b p xs us`: running `d` leads to the values and the output of `p`, and the
    operands `xs` have the values of the data `us`; or `p` has a failure, and the run fails with
    it. -/
inductive Performs (m : Module) (b : Body) (d : Draft) (p : Effects) (xs : List Operand)
    (us : List Datum) : Prop
  | runs {s : Machine} : p.failure = none → Runs m b d s p.memory p.output →
    List.Forall₂ (fun x u => s.eval x = .ok u.value) xs us → Performs m b d p xs us
  | fails {e : RunError} : p.failure = some e.unnamed → d.exec m b = .error e →
    Performs m b d p xs us

variable {p : Effects} (h : Runs m b d s p.memory p.output) (hp : p.failure = none)

include h hp

/-- A call of `printf` prints what `Effects.format` prints, or fails as it does. -/
theorem performs_printf {format : String} {x : Operand} {v : Value}
    (hd : (d.printf format x).Within m b) (hx : s.eval x = .ok v) (hv : v.ty ≠ .ptr) :
    (d.printf format x).Performs m b (p.format format v).2 [d.next] (p.format format v).1 := by
  -- The format is the constant added last, and the value is no text, so no other one is read.
  have hrender : m.printf [.pointer (.global d.constants.size), v] =
      Module.render { name := "" } format format.toList [v] := by
    rw [Module.printf, Module.constantText_eq (constants_printf hd)]
    exact Module.render_congr (by simpa using Module.constantText_of_ne hv m _) _ _
  unfold Effects.format
  split
  · next text htext =>
    obtain ⟨s', h', hnext⟩ := h.printf hd hx (hrender.trans htext)
    exact .runs hp h' (.cons hnext .nil)
  · next e he =>
    exact .fails (Effects.failure_fail hp e) (h.printf_eq_error hd hx (hrender.trans he))

/-- A text is printed with a newline. -/
theorem performs_printString {text : String} (hd : (d.printString text).Within m b) :
    (d.printString text).Performs m b (p.print (text ++ "\n")).2 [d.next]
      (p.print (text ++ "\n")).1 := by
  have hconstant : Runs m b (d.constant text) s p.memory p.output :=
    { h with valid := (Grows.constant text .refl).valid h.valid }
  have htext : m.globals[d.constants.size]?.map (·.bytes) = some text.toByteArray :=
    (hd.of_grows (grows_printf _ _ _)).constants Array.getElem?_push_size
  obtain ⟨s', h', hnext⟩ := hconstant.printf hd rfl (Module.printf_text (constants_printf hd) htext)
  exact .runs hp h' (.cons hnext .nil)

/-- `Draft.operate` does what `Effects.operate` says. -/
theorem performs_operate (op : Option Operator) {x y : Operand} {u v : Datum}
    (hx : d.body.typeOf x = u.ty) (hu : s.eval x = .ok u.value) (hy : d.body.typeOf y = v.ty)
    (hv : s.eval y = .ok v.value) :
    (d.operate op x y).1.Performs m b (p.operate op u v).2 (d.operate op x y).2
      (p.operate op u v).1 := by
  cases op with
  | none => exact .runs hp h .nil
  | some op =>
    obtain ⟨hleft, hright⟩ := typeOf_asDoubles hx hy
    obtain ⟨s₁, h₁, hx₁⟩ := h.asDouble hx hu
    -- The right operand keeps its type and value while the left one is widened, and the other way
    -- round.
    have hg := grows_asDouble d x
    have hy₁ : (d.asDouble x).2.body.typeOf y = v.ty := by rw [hg.typeOf (hy ▸ v.ty_ne_void), hy]
    have hv₁ := (hg.eval h₁.valid h.exec h₁.exec (hy ▸ v.ty_ne_void)).trans hv
    obtain ⟨s₂, h₂, hy₂⟩ := h₁.asDouble hy₁ hv₁
    have hx₂ := ((grows_asDouble _ y).eval h₂.valid h₁.exec h₂.exec
      (typeOf_asDouble hx ▸ u.wideTy_ne_void)).trans hx₁
    by_cases htypes : u.wideTy = .double ∧ v.wideTy = .double
    · rw [operate_of_typeOf (by rwa [hleft, hright]), Effects.operate, if_pos htypes]
      have hstep := op.step_kind_eq hx₂ hy₂ m b ((d.asDouble x).2.asDouble y).2.instructions.size
      split
      · next w hw =>
        rw [hw] at hstep
        refine .runs hp (h₂.push _ op.ty (some op.hint)
          (op.isTerminator_kind _ _) hstep rfl h₂.output) (.cons ?_ .nil)
        rw [apply_eq, next, Machine.eval, Machine.getElem?_setRegister, if_pos rfl]
      · next e he =>
        rw [he] at hstep
        exact .fails (Effects.failure_fail hp e) (h₂.exec_push_eq_error op.ty (some op.hint) hstep)
    · rw [operate_of_not_typeOf (by rwa [hleft, hright]), Effects.operate, if_neg htypes]
      exact .runs hp h₂ .nil

/-- `Draft.write` does what `Effects.set` says. -/
theorem performs_write (name : String) {x : Operand} {u : Datum} (hx : d.body.typeOf x = u.ty)
    (hu : s.eval x = .ok u.value) : (d.write name x).Performs m b (p.set name u.content) [] [] := by
  obtain ⟨s₁, h₁⟩ := h.declare name
  have hg : Grows d (d.declare name) := .declare name .refl
  have hx₁ : (d.declare name).body.typeOf x = u.ty := by rw [hg.typeOf (hx ▸ u.ty_ne_void), hx]
  have hu₁ := (hg.eval h₁.valid h.exec h₁.exec (hx ▸ u.ty_ne_void)).trans hu
  obtain ⟨s₂, h₂, hx₂⟩ := h₁.asDouble hx₁ hu₁
  have hstore := h₂.store ((lookup?_asDouble _ x name).trans (lookup?_declare_self d name)) hx₂
  rw [← Effects.memory_set] at hstore
  exact .runs hp hstore .nil

/-- A load from a variable that holds something gives it. -/
theorem performs_load {name : String} {v : Variable} {x : Content} (hv : d.lookup? name = some v)
    (hx : p.values name = some x) :
    (d.push (.load .double (.inst (d.slot name))) .double (some name)).Performs m b p [d.next]
      [x.datum] := by
  have hmemory : p.memory name = some x.value := by rw [Effects.memory, hx, Option.map_some]
  refine .runs hp (h.push _ _ _ rfl (h.step_load hv hmemory) rfl h.output) (.cons ?_ .nil)
  rw [next, Machine.eval, Machine.getElem?_setRegister, if_pos rfl, x.value_datum]

/-- A read does what `Command.eval` says of it, under each policy. -/
theorem performs_read (hw : ∀ name, d.isWritten name = (p.values name).isSome) (policy : ReadPolicy)
    (name : String) :
    ((Command.call (.read name)).draft policy d).1.Performs m b
      ((Command.call (.read name)).eval policy p).2
      ((Command.call (.read name)).draft policy d).2
        ((Command.call (.read name)).eval policy p).1 := by
  obtain ⟨s₁, h₁⟩ := h.declare name
  have hslot := lookup?_declare_self d name
  cases hv : p.values name with
  | some x =>
    have hwritten : d.isWritten name = true := by rw [hw, hv]; rfl
    rw [Command.draft_read fun _ => hwritten, Command.eval_read_of_some hv, read,
      prepare_of_written (by rwa [isWritten_declare])]
    exact performs_load h₁ hp hslot hv
  | none =>
    have hwritten : d.isWritten name = false := by rw [hw, hv]; rfl
    have hmemory : p.memory name = none := by rw [Effects.memory, hv, Option.map_none]
    cases policy with
    -- The slot is loaded from with nothing in it.
    | preserve =>
      rw [Command.draft_read (by simp), Command.eval_read_preserve hv, read,
        prepare_of_ne (by simp)]
      refine .fails ?_ (h₁.load_eq_error hslot hmemory (some name))
      rw [Effects.failure_fail hp]
      rfl
    -- Zero is stored and then loaded.
    | zeroInit =>
      rw [Command.draft_read (by simp), Command.eval_read_zeroInit hv, read,
        prepare_of_unwritten (by rwa [isWritten_declare])]
      have hzero : s₁.eval (.double Double.zero) = .ok (Content.number .zero).value := rfl
      have hstore := h₁.store hslot hzero
      rw [← Effects.memory_set] at hstore
      obtain ⟨v', hv', -⟩ := (Grows.store name (.double Double.zero) .refl).lookup? hslot
      have hvalue : (p.set name (.number .zero)).values name = some (.number .zero) := if_pos rfl
      exact performs_load hstore hp hv' hvalue
    -- The read is refused. Only the slot is reserved.
    | error =>
      rw [Command.draft_read_of_refused rfl hwritten, Command.eval_read_error hv]
      exact .runs hp h₁ .nil

end Draft

theorem Datum.ty_value_ne_ptr (u : Datum) : u.value.ty ≠ .ptr := by
  cases u <;> simp [value, Value.ty]

theorem Content.ty_value_ne_ptr (x : Content) : x.value.ty ≠ .ptr := by
  cases x <;> simp [value, Value.ty]

/-- Running what `Command.draft` adds does what `Command.eval` says. -/
theorem Command.performs_draft {m : Module} {b : Body} {d : Draft} {s : Machine} {p : Effects}
    (h : Runs m b d s p.memory p.output) (hp : p.failure = none)
    (hw : ∀ name, d.isWritten name = (p.values name).isSome) (policy : ReadPolicy)
    {made : Command Operand} {meant : Command Datum}
    (hmatch : made.Matches (fun x u => d.body.typeOf x = u.ty ∧ s.eval x = .ok u.value) meant)
    (hd : (made.draft policy d).1.Within m b) :
    (made.draft policy d).1.Performs m b (meant.eval policy p).2 (made.draft policy d).2
      (meant.eval policy p).1 := by
  cases hmatch with
  | call hmatch =>
    cases hmatch with
    | constant value => exact .runs hp h (.cons rfl .nil)
    | read name => exact performs_read h hp hw policy name
    | write name hx => exact performs_write h hp name hx.1 hx.2
    | binaryOp symbol hx hy => exact performs_operate h hp _ hx.1 hx.2 hy.1 hy.2
    | apply op hx hy => exact performs_operate h hp _ hx.1 hx.2 hy.1 hy.2
    -- What is printed is converted first, and may be a whole number: the format refuses it then.
    | @printNumber x u hx =>
      obtain ⟨s₁, h₁, hx₁⟩ := h.asDouble hx.1 hx.2
      exact performs_printf h₁ hp hd hx₁ u.content.ty_value_ne_ptr
    | printString text => exact performs_printString h hp hd
  | resolve name =>
    obtain ⟨s₁, h₁⟩ := h.declare name
    exact .runs hp h₁ .nil
  | @printFormatted format x u hx => exact performs_printf h hp hd hx.2 u.ty_value_ne_ptr

/-! ### Sessions -/

/-- Of related lists, beginnings of the same length are related. -/
theorem forall₂_of_append {α β : Type} {R : α → β → Prop} {xs xs' : List α} {ys ys' : List β}
    (h : List.Forall₂ R (xs ++ xs') (ys ++ ys')) (hlength : xs.length = ys.length) :
    List.Forall₂ R xs ys := by
  have htake := List.forall₂_take xs.length h
  rwa [List.take_left, List.take_left' hlength.symm] at htake

/-- The datum that is meant, after these were handed out. -/
def Argument.datum? (data : List Datum) : Argument → Option Datum
  | constant value => some (.number value)
  | integer value => some (.count value)
  | result index => data[index]?

/-- An argument that has an operand has a datum, and `R` relates the two. -/
theorem Argument.exists_datum {R : Operand → Datum → Prop} {handles : List Operand}
    {data : List Datum} (hR : List.Forall₂ R handles data)
    (hconstant : ∀ v, R (.double v) (.number v)) (hinteger : ∀ n, R (.i32 n) (.count n))
    {a : Argument} {x : Operand} (h : a.operand? handles = some x) :
    ∃ u, a.datum? data = some u ∧ R x u := by
  cases a with
  | constant value =>
    obtain rfl := Option.some.inj h
    exact ⟨_, rfl, hconstant value⟩
  | integer value =>
    obtain rfl := Option.some.inj h
    exact ⟨_, rfl, hinteger value⟩
  | result index => exact exists_getElem?_of_forall₂ hR h

/-- An argument that has a datum has an operand, and `R` relates the two. -/
theorem Argument.exists_operand {R : Operand → Datum → Prop} {handles : List Operand}
    {data : List Datum} (hR : List.Forall₂ R handles data)
    (hconstant : ∀ v, R (.double v) (.number v)) (hinteger : ∀ n, R (.i32 n) (.count n))
    {a : Argument} {u : Datum} (h : a.datum? data = some u) :
    ∃ x, a.operand? handles = some x ∧ R x u := by
  cases a with
  | constant value =>
    obtain rfl := Option.some.inj h
    exact ⟨_, rfl, hconstant value⟩
  | integer value =>
    obtain rfl := Option.some.inj h
    exact ⟨_, rfl, hinteger value⟩
  | result index => exact exists_getElem?_of_forall₂ hR.flip h

/-- What commands have done so far, and the data that they handed out. -/
structure Ledger extends Effects where
  data : List Datum := []

/-- Evaluate a command, unless it is given a result that was not handed out. -/
def Ledger.give (policy : ReadPolicy) (e : Ledger) (command : Command Argument) :
    Option Ledger := do
  let meant ← command.traverse (·.datum? e.data)
  let (data, p) := meant.eval policy e.toEffects
  return { p with data := e.data ++ data }

namespace Ledger

variable {policy : ReadPolicy} {e e' : Ledger} {command : Command Argument}

/-- A command whose data are found is evaluated. -/
theorem give_of_traverse {meant : Command Datum}
    (h : command.traverse (·.datum? e.data) = some meant) :
    e.give policy command = some ⟨(meant.eval policy e.toEffects).2,
      e.data ++ (meant.eval policy e.toEffects).1⟩ := by
  rw [give, h]
  rfl

/-- A command that is evaluated has its data, and leaves what `Command.eval` leaves. -/
theorem exists_of_give (h : e.give policy command = some e') :
    ∃ meant : Command Datum, command.traverse (·.datum? e.data) = some meant ∧
      e' = ⟨(meant.eval policy e.toEffects).2, e.data ++ (meant.eval policy e.toEffects).1⟩ := by
  obtain ⟨meant, hmeant, he'⟩ := Option.bind_eq_some_iff.mp h
  exact ⟨meant, hmeant, (Option.some.inj he').symm⟩

end Ledger

namespace Session

/-- `Mirrors options s e d`: the session `s` is at the point where the evaluation `e` is. The draft
    `d` has the types of the data, and performs what was evaluated. -/
structure Mirrors (options : Options) (s : Session) (e : Ledger) (d : Draft) : Prop where
  follows : s.compilation.Follows options d
  names : d.UniqueNames
  knows : d.Knows e.toEffects s.handles e.data
  performs : ∀ {m : Module} {b : Body}, d.Within m b → d.Performs m b e.toEffects s.handles e.data

/-- A new session mirrors an evaluation of nothing. -/
theorem mirrors_empty (options : Options) :
    Mirrors options { compilation := { options } } {} {} where
  follows := Compilation.follows_empty options
  names := uniqueNames_empty
  knows := ⟨.nil, fun _ => rfl⟩
  performs {m b} _ := .runs rfl (runs_empty m b) .nil

variable {options : Options} {s s' : Session} {e e' : Ledger} {d : Draft}
  {command : Command Argument}

/-- A command that can be evaluated can be carried out. -/
theorem Mirrors.exists_give (h : Mirrors options s e d)
    (he : e.give options.reads command = some e') :
    ∃ s', s.give command = some s' := by
  obtain ⟨meant, hmeant, -⟩ := Ledger.exists_of_give he
  obtain ⟨made, hmade, -⟩ := Command.exists_traverse (R := fun u x => d.body.typeOf x = u.ty)
    (Argument.exists_operand h.knows.types (fun _ => rfl) fun _ => rfl) hmeant
  exact ⟨_, give_of_traverse hmade⟩

/-- What a command adds to the draft of a session performs what the command is evaluated to. -/
theorem Mirrors.performs_draft (h : Mirrors options s e d) {made : Command Operand}
    {meant : Command Datum} (hmade : command.traverse (·.operand? s.handles) = some made)
    (hmeant : command.traverse (·.datum? e.data) = some meant) {m : Module} {b : Body}
    (hd : (made.draft options.reads d).1.Within m b) :
    (made.draft options.reads d).1.Performs m b (meant.eval options.reads e.toEffects).2
      (s.handles ++ (made.draft options.reads d).2)
        (e.data ++ (meant.eval options.reads e.toEffects).1) := by
  have hg := made.grows_draft options.reads d
  cases h.performs (hd.of_grows hg) with
  | fails hfailure hexec =>
    -- Code that failed before fails with more code behind it.
    exact .fails (Command.failure_eval hfailure meant) (hg.exec_eq_error hexec)
  | @runs st hp hrun hvalues =>
    -- The results so far have the types and the values of the data.
    have hholds : List.Forall₂ (fun x u => d.body.typeOf x = u.ty ∧
        st.eval x = .ok u.value) s.handles e.data :=
      List.Forall₂.mp (fun _ _ => And.intro) h.knows.types hvalues
    obtain ⟨meant', hmeant', hmatch⟩ := Command.exists_traverse
      (Argument.exists_datum hholds (fun _ => ⟨rfl, rfl⟩) fun _ => ⟨rfl, rfl⟩) hmade
    obtain rfl := Option.some.inj (hmeant.symm.trans hmeant')
    cases Command.performs_draft hrun hp h.knows.written options.reads hmatch hd with
    | fails hfailure hexec => exact .fails hfailure hexec
    | runs hp' hrun' hnew =>
      -- Registers are written once, so the earlier results have kept their values.
      refine .runs hp' hrun' (List.rel_append (hholds.imp fun x u hx => ?_) hnew)
      rw [hg.eval hrun'.valid hrun.exec hrun'.exec (hx.1 ▸ u.ty_ne_void), hx.2]

/-- Every command keeps a session and an evaluation together. -/
theorem Mirrors.give (h : Mirrors options s e d) (hs : s.give command = some s') :
    ∃ e' d', e.give options.reads command = some e' ∧ Mirrors options s' e' d' := by
  obtain ⟨made, hmade, rfl⟩ := exists_of_give hs
  obtain ⟨meant, hmeant, hmatch⟩ := Command.exists_traverse
    (Argument.exists_datum h.knows.types (fun _ => rfl) fun _ => rfl) hmade
  obtain ⟨hfollows, hnew⟩ := made.emits_draft s.compilation h.follows
  have hknows := Command.knows_draft options.reads hmatch h.knows.written
  rw [hnew]
  refine ⟨_, _, Ledger.give_of_traverse hmeant, hfollows,
    (made.grows_draft _ d).uniqueNames h.names, ⟨?_, hknows.written⟩, h.performs_draft hmade hmeant⟩
  -- Earlier results keep their types while the draft grows.
  refine List.rel_append (h.knows.types.imp fun x u hx => ?_) hknows.types
  rw [(made.grows_draft options.reads d).typeOf (hx ▸ u.ty_ne_void), hx]

/-- What was handed out last can be forgotten on both sides. -/
theorem Mirrors.forget {c : Compilation} {handles new : List Operand} {p : Effects}
    {data more : List Datum} (h : Mirrors options ⟨c, handles ++ new⟩ ⟨p, data ++ more⟩ d)
    (hlength : handles.length = data.length) :
    Mirrors options ⟨c, handles⟩ ⟨p, data⟩ d where
  follows := h.follows
  names := h.names
  knows := ⟨forall₂_of_append h.knows.types hlength, h.knows.written⟩
  performs hd := by
    cases h.performs hd with
    | runs hp hrun hvalues => exact .runs hp hrun (forall₂_of_append hvalues hlength)
    | fails hfailure hexec => exact .fails hfailure hexec

end Session

/-! ### What a program shows -/

/-- What can be seen of a run: the exit code and the output, or why it failed. The names of slots do
    not count. -/
def observed : Except RunError Execution → Except RunError (Int32 × String)
  | .ok x => .ok (x.exitCode, x.stdout)
  | .error e => .error e.unnamed

/-- What can be seen of the run of a program that has done this. -/
def Effects.outcome (p : Effects) : Except RunError (Int32 × String) :=
  match p.failure with
  | none => .ok (0, p.output)
  | some e => .error e

/-- `finish` succeeds on the compilation of a session, and the program shows `e.outcome`. -/
theorem Session.Mirrors.observed_run {options : Options} {s : Session} {e : Ledger} {d : Draft}
    (h : Mirrors options s e d) :
    ∃ c, Emit.finish s.compilation = (.ok (), c) ∧ observed (c.module.run "main") = e.outcome := by
  obtain ⟨c, hc, hmodule⟩ := h.follows.finish
  refine ⟨c, hc, ?_⟩
  rw [hmodule, h.follows.valid.run_finish, Effects.outcome]
  cases h.performs (d.within_finish options.moduleName) with
  | runs hp hrun _ =>
    rw [hp, hrun.exec]
    exact congrArg (fun output => Except.ok (0, output)) hrun.output
  | fails hfailure hexec =>
    rw [hfailure, hexec]
    rfl

end Straightline
