import Straightline.Proofs.Emission.Agreement
import Straightline.Proofs.Script.Lowering

/-!
# Calls

A compilation can be driven call by call. A call takes constants and what earlier calls handed out,
and what a failed call has added stays.

* `Call` are the calls that compute, store and print, and `Compilation.Reachable` are the
  compilations that calls and scripts lead to, whether they succeed or fail.
* `Emit.Stops` says that a step fails and what it leaves behind; there is one `stops_` lemma for
  each way to fail.
* `Draft.Built` are the drafts of these compilations, one instruction or print at a time, and
  `Compilation.Reachable.exists_built` says that there are no others. What holds of all reachable
  compilations is proved by induction over `Built`.
-/

namespace Straightline

open Draft

/-- Behind `before` the list `xs ++ [x]` goes on with `a` iff `xs` does, or `before` is all of `xs`
    and `a` is `x`. -/
theorem exists_append_singleton_iff {α : Type} {xs before : List α} {x a : α} :
    (∃ after, xs ++ [x] = before ++ a :: after) ↔
      (∃ after, xs = before ++ a :: after) ∨ xs = before ∧ x = a := by
  constructor
  · rintro ⟨after, h⟩
    rcases List.eq_nil_or_concat after with rfl | ⟨after, last, rfl⟩
    · obtain ⟨hxs, hx⟩ := List.append_inj' h rfl
      exact .inr ⟨hxs, (List.cons.inj hx).1⟩
    · rw [List.concat_eq_append, ← List.cons_append, ← List.append_assoc] at h
      exact .inl ⟨after, (List.append_inj' h rfl).1⟩
  · rintro (⟨after, rfl⟩ | ⟨rfl, rfl⟩)
    · exact ⟨after ++ [x], by simp⟩
    · exact ⟨[], rfl⟩

/-! ### Calls and what they lead to -/

/-- A call with operands from `α`. -/
inductive Call (α : Type) where
  /-- Hand out a constant. -/
  | constant (value : Double)
  | read (name : String)
  | write (name : String) (value : α)
  | binaryOp (lhs rhs : α) (symbol : String)
  | apply (lhs rhs : α) (op : BinaryOperator)
  | printNumber (value : α)
  | printString (text : String)
  deriving DecidableEq

namespace Call

variable {α : Type}

/-- The operands that a call is given. -/
def operands : Call α → List α
  | constant _ => []
  | read _ => []
  | write _ value => [value]
  | binaryOp lhs rhs _ => [lhs, rhs]
  | apply lhs rhs _ => [lhs, rhs]
  | printNumber value => [value]
  | printString _ => []

/-- What a call does, and what it hands out. -/
def emit : Call Operand → Emit (List Operand)
  | constant value => return [.double value]
  | read name => return [← Emit.read name]
  | write name value => do
    Emit.write name value
    return []
  | binaryOp lhs rhs symbol => return [← Emit.binaryOp lhs rhs symbol]
  | apply lhs rhs op => return [← Emit.apply lhs rhs op]
  | printNumber value => return [← Emit.printNumber value]
  | printString text => return [← Emit.printString text]

end Call

/-- Whether an operand is a constant, which needs no call to hand it out. -/
def Operand.IsConstant : Operand → Prop
  | double _ => True
  | i32 _ => True
  | _ => False

/-- What a step hands out; a step that fails hands out nothing. -/
def handedOut {ε : Type} : Except ε (List Operand) → List Operand
  | .ok xs => xs
  | .error _ => []

/-- The compilations that calls and scripts lead to, with what was handed out on the way. An operand
    is a constant or was handed out before. -/
inductive Compilation.Reachable (options : Options) : Compilation → List Operand → Prop
  | new : Reachable options { options } []
  | call {c : Compilation} {handles : List Operand} (call : Call Operand) :
    Reachable options c handles → (∀ x ∈ call.operands, x.IsConstant ∨ x ∈ handles) →
      Reachable options (call.emit c).2 (handles ++ handedOut (call.emit c).1)
  | resolve {c : Compilation} {handles : List Operand} (name : String) :
    Reachable options c handles → Reachable options (Emit.resolve name c).2 handles
  | printFormatted {c : Compilation} {handles : List Operand} (format : String) (x : Operand) :
    Reachable options c handles → x.IsConstant ∨ x ∈ handles →
      Reachable options (Emit.printFormatted format x c).2
        (handles ++ (Emit.printFormatted format x c).1.toOption.toList)
  | script {c : Compilation} {handles : List Operand} (source : String) :
    Reachable options c handles → Reachable options (compileInto source c).2 handles

/-! ### Steps that fail -/

namespace Operator

/-- The name of an operator's instruction in errors. -/
def opcode : Operator → String
  | arithmetic op => op.opcode
  | comparison _ => "fcmp"

/-- `check` of an operator's instruction expects two doubles, the left one first. -/
theorem check_kind_eq (op : Operator) (b : Body) (ret : Ty) (p : Nat → Option Prototype)
    (x y : Operand) :
    b.check ret p (op.kind x y) = (do
      b.expect op.opcode x .double
      b.expect op.opcode y .double
      return op.ty) := by
  cases op <;> rfl

/-- `check` refuses an operator's instruction unless both operands are doubles. -/
theorem exists_check_kind_eq_error (op : Operator) {b : Body} {x y : Operand}
    (h : ¬ (b.typeOf x = .double ∧ b.typeOf y = .double)) :
    ∃ cause, ∀ (ret : Ty) (p : Nat → Option Prototype), b.check ret p (op.kind x y) =
      .error cause := by
  by_cases hx : b.typeOf x = .double
  · have hy : b.typeOf y ≠ .double := fun hy => h ⟨hx, hy⟩
    refine ⟨.typeMismatch op.opcode .double (b.typeOf y), fun ret p => ?_⟩
    rw [check_kind_eq, Body.expect, if_pos hx, Body.expect, if_neg hy]
    rfl
  · refine ⟨.typeMismatch op.opcode .double (b.typeOf x), fun ret p => ?_⟩
    rw [check_kind_eq, Body.expect, if_neg hx]
    rfl

end Operator

namespace Emit

variable {α β : Type} {options : Options} {d d' d'' : Draft} {x : Emit α} {next : α → Emit β}
  {Q : α → Prop} {e : EmitError}

/-- `Stops options d x e d'`: on everything that follows `d`, `x` fails with `e`, and what it leaves
    behind follows `d'`. -/
def Stops (options : Options) (d : Draft) (x : Emit α) (e : EmitError) (d' : Draft) : Prop :=
  ∀ c : Compilation, c.Follows options d → ∃ c', x c = (.error e, c') ∧ c'.Follows options d'

/-- `throw e` keeps the draft. -/
theorem stops_throw (options : Options) (d : Draft) (e : EmitError) :
    Stops options d (throw e : Emit α) e d :=
  fun c hc => ⟨c, rfl, hc⟩

/-- If `x` stops at `d'`, so does `x >>= next`. -/
theorem Stops.bind (hx : Stops options d x e d') : Stops options d (x >>= next) e d' := by
  intro c hc
  obtain ⟨c', hxc, hc'⟩ := hx c hc
  exact ⟨c', bind_of_error hxc, hc'⟩

/-- If `x` leads to `d'` and `next a` stops at `d''` from there, then `x >>= next` stops at
    `d''`. -/
theorem Leads.bind_stops (hx : Leads options d x Q d')
    (hnext : ∀ a, Q a → Stops options d' (next a) e d'') : Stops options d (x >>= next) e d'' := by
  intro c hc
  obtain ⟨a, c', hxc, ha, hc'⟩ := hx c hc
  rw [bind_of_ok hxc]
  exact hnext a ha c' hc'

/-- `instruction` refuses what fails `check`, and adds nothing. -/
theorem stops_instruction {kind : Kind} {cause : BuildError}
    (hcheck : ∀ p : Nat → Option Prototype, d.body.check .i32 p kind = .error cause)
    (hint : String) :
    Stops options d (instruction kind hint) (.build cause) d := by
  intro c hc
  refine ⟨c, ?_, hc⟩
  have hret : mainPrototype.ret = .i32 := rfl
  unfold instruction Body.emit
  rw [hc.main, hret, hcheck]
  rfl

/-- Under `error`, `read` stops at `d.declare name` if nothing was stored to `name`: the variable
    has a slot from then on. -/
theorem stops_read {name : String} (hpolicy : options.reads = .error)
    (hw : d.isWritten name = false) :
    Stops options d (read name) (.uninitializedRead name) (d.declare name) := by
  refine (leads_resolve name).bind_stops fun found h => Stops.bind ?_
  -- Marks are set under another policy only, so the read is not let pass.
  have hwarned : found.2.warned = false := by
    cases hwarned : found.2.warned with
    | false => rfl
    | true => exact absurd (h.warned hwarned) (by simp [hpolicy])
  unfold prepareRead
  rw [h.written, isWritten_declare, hw, hwarned]
  refine leads_get.bind_stops fun c hc => ?_
  rw [hc.options, hpolicy]
  exact stops_throw _ _ _

/-- `apply` stops if an operand does not come out of `asDouble` as a double. What was widened
    stays. -/
theorem stops_apply (op : Operator) {x y : Operand}
    (h : ¬ (((d.asDouble x).2.asDouble y).2.body.typeOf (d.asDouble x).1 = .double ∧
      ((d.asDouble x).2.asDouble y).2.body.typeOf ((d.asDouble x).2.asDouble y).1 = .double)) :
    ∃ e, Stops options d (apply x y op.named) e ((d.asDouble x).2.asDouble y).2 := by
  obtain ⟨cause, hcheck⟩ := op.exists_check_kind_eq_error h
  refine ⟨.build cause, ?_⟩
  rw [apply, op.instruction?_named]
  refine (leads_asDouble x).bind_stops fun x' hx' => ?_
  refine (leads_asDouble y).bind_stops fun y' hy' => ?_
  subst hx' hy'
  exact stops_instruction (hcheck .i32) op.hint

/-- `apply` has no instruction for `==`, and stops before anything is added. -/
theorem stops_equality (x y : Operand) :
    Stops options d (apply x y .equality) (.unsupportedOperator "==") d :=
  stops_throw _ _ _

/-- `binaryOp` stops at a symbol that is no operator, before anything is added. -/
theorem stops_binaryOp {symbol : String} (h : BinaryOperator.ofSymbol? symbol = none)
    (x y : Operand) :
    Stops options d (binaryOp x y symbol) (.unsupportedOperator symbol) d := by
  rw [binaryOp, h]
  exact stops_throw _ _ _

end Emit

/-! ### Drafts that calls lead to -/

/-- `b.Keeps b'`: all instructions of `b` stand in `b'` at the same places. -/
def Body.Keeps (b b' : Body) : Prop :=
  ∀ (i : Nat) (inst : Instruction), b.instructions[i]? = some inst → b'.instructions[i]? = some inst

namespace Draft

/-- What the instruction of index `j` may use: a constant, or a result that comes earlier and has a
    name. -/
def IsUsable (d : Draft) (j : Nat) : Operand → Prop
  | .inst i => i < j ∧ ∃ inst name, d.instructions[i]? = some inst ∧ inst.name = some name
  | .global k => k < d.constants.size
  | _ => True

/-- What the next instruction may use. -/
def IsAvailable (d : Draft) (x : Operand) : Prop := d.IsUsable d.instructions.size x

/-- What may be used stays so if all instructions and constants are kept. -/
theorem IsUsable.keeps {d d' : Draft} {j : Nat} {x : Operand} (hx : d.IsUsable j x)
    (h : d.body.Keeps d'.body) (hle : d.constants.size ≤ d'.constants.size) : d'.IsUsable j x := by
  cases x with
  | double | i32 => trivial
  | inst i =>
    obtain ⟨hlt, inst, name, hi, hname⟩ := hx
    exact ⟨hlt, inst, name, h i inst hi, hname⟩
  | global k => exact Nat.lt_of_lt_of_le hx hle

/-- A draft that grows keeps its instructions. -/
theorem Grows.keeps {d d' : Draft} (h : Grows d d') : d.body.Keeps d'.body :=
  fun _ _ hi => h.getElem? hi

/-- A draft that grows keeps its constants. -/
theorem Grows.size_constants {d d' : Draft} (h : Grows d d') :
    d.constants.size ≤ d'.constants.size := by
  simpa using h.constants.length_le

/-- What is available stays so in a draft that grows. -/
theorem IsAvailable.grows {d d' : Draft} {x : Operand} (hx : d.IsAvailable x) (h : Grows d d') :
    d'.IsAvailable x := by
  have hle : d.instructions.size ≤ d'.instructions.size := by simpa using h.instructions.length_le
  have hx' := IsUsable.keeps hx h.keeps h.size_constants
  cases x with
  | double | i32 | global => exact hx'
  | inst i => exact ⟨Nat.lt_of_lt_of_le hx'.1 hle, hx'.2⟩

/-- A constant is available in every draft. -/
theorem isAvailable_of_isConstant {x : Operand} (hx : x.IsConstant) (d : Draft) :
    d.IsAvailable x := by
  cases x with
  | double | i32 => trivial
  | inst | global => exact absurd hx id

/-- The result of an instruction that is pushed with a name is available. -/
theorem isAvailable_next (d : Draft) (kind : Kind) (ty : Ty) (hint : String) :
    (d.push kind ty (some hint)).IsAvailable d.next := by
  refine ⟨by simp, ⟨kind, ty, d.nextName (some hint)⟩, (d.names.fresh hint).1, by simp, rfl⟩

/-- The result of a call of `printf` is available. -/
theorem isAvailable_printf (d : Draft) (format : String) (x : Operand) :
    (d.printf format x).IsAvailable d.next :=
  isAvailable_next { d.constant format with declaresPrintf := true } _ _ _

/-- The drafts that calls lead to. Under a policy other than `preserve`, only what was stored to is
    loaded from. -/
inductive Built (policy : ReadPolicy) : Draft → Prop
  | empty : Built policy {}
  | declare {d : Draft} (name : String) : Built policy d → Built policy (d.declare name)
  | store {d : Draft} {name : String} {v : Variable} {x : Operand} : Built policy d →
    d.lookup? name = some v → d.IsAvailable x → Built policy (d.store name x)
  | load {d : Draft} {name : String} {v : Variable} : Built policy d → d.lookup? name = some v →
    (policy ≠ .preserve → d.isWritten name = true) →
      Built policy (d.push (.load .double (.inst (d.slot name))) .double (some name))
  | widen {d : Draft} {x : Operand} : Built policy d → d.IsAvailable x → d.body.typeOf x = .i1 →
    Built policy (d.push (.widen x) .double (some "booltmp"))
  | operate {d : Draft} {x y : Operand} (op : Operator) : Built policy d → d.IsAvailable x →
    d.IsAvailable y → d.body.typeOf x = .double → d.body.typeOf y = .double →
      Built policy (d.push (op.kind x y) op.ty (some op.hint))
  | printf {d : Draft} {x : Operand} (format : String) : Built policy d → d.IsAvailable x →
    Built policy (d.printf format x)
  | printString {d : Draft} (text : String) : Built policy d → Built policy (d.printString text)

namespace Built

variable {policy : ReadPolicy} {d : Draft}

/-- A built draft grows out of `{}`. -/
theorem grows (h : d.Built policy) : Grows {} d := by
  induction h with
  | empty => exact .refl
  | declare name _ ih => exact .declare name ih
  | store _ _ _ ih => exact .store _ _ ih
  | load _ _ _ ih => exact .push _ _ _ rfl ih
  | widen _ _ _ ih => exact .push _ _ _ rfl ih
  | operate op _ _ _ _ _ ih => exact .push _ _ _ (op.isTerminator_kind _ _) ih
  | printf format _ _ ih => exact ih.trans (grows_printf _ _ _)
  | printString text _ ih => exact ih.trans (grows_printString _ _)

/-- `Draft.asDouble` builds on, and what it gives is available. -/
theorem asDouble (h : d.Built policy) {x : Operand} (hx : d.IsAvailable x) :
    (d.asDouble x).2.Built policy ∧ (d.asDouble x).2.IsAvailable (d.asDouble x).1 := by
  by_cases hty : d.body.typeOf x = .i1
  · rw [asDouble_of_i1 hty]
    exact ⟨h.widen hx hty, d.isAvailable_next _ _ _⟩
  · rw [asDouble_of_ne hty]
    exact ⟨h, hx⟩

/-- `Draft.write` builds on, if the value is available. -/
theorem write (h : d.Built policy) (name : String) {x : Operand} (hx : d.IsAvailable x) :
    (d.write name x).Built policy := by
  have hdeclare := h.declare name
  obtain ⟨hdouble, hx'⟩ := hdeclare.asDouble (hx.grows (.declare name .refl))
  exact hdouble.store ((lookup?_asDouble _ x name).trans (lookup?_declare_self d name)) hx'

/-- `Draft.read` builds on, unless the policy `error` forbids it, and what it gives is available. -/
theorem read (h : d.Built policy) {name : String}
    (hread : policy = .error → d.isWritten name = true) :
    (d.read policy name).2.Built policy ∧
    (d.read policy name).2.IsAvailable (d.read policy name).1 := by
  have hv := lookup?_declare_self d name
  have hprepare : ((d.declare name).prepare policy name).Built policy := by
    unfold prepare
    split
    · exact (h.declare name).store hv trivial
    · exact h.declare name
  obtain ⟨v, hv', -⟩ := (grows_prepare _ policy name).lookup? hv
  refine ⟨hprepare.load hv' fun hpolicy => ?_, isAvailable_next _ _ _ _⟩
  -- Under `error` it was written before, and under `zeroInit` it is now.
  refine isWritten_prepare hv fun hzero => ?_
  rw [isWritten_declare]
  cases policy with
  | preserve => exact absurd rfl hpolicy
  | zeroInit => exact absurd rfl hzero
  | error => exact hread rfl

/-- Two operands in a row are made doubles, and both are available then. -/
theorem asDoubles (h : d.Built policy) {x y : Operand} (hx : d.IsAvailable x)
    (hy : d.IsAvailable y) :
    ((d.asDouble x).2.asDouble y).2.Built policy ∧
      ((d.asDouble x).2.asDouble y).2.IsAvailable (d.asDouble x).1 ∧
      ((d.asDouble x).2.asDouble y).2.IsAvailable ((d.asDouble x).2.asDouble y).1 := by
  obtain ⟨h₁, hx₁⟩ := h.asDouble hx
  obtain ⟨h₂, hy₂⟩ := h₁.asDouble (hy.grows (grows_asDouble d x))
  exact ⟨h₂, hx₁.grows (grows_asDouble _ y), hy₂⟩

/-- `Draft.printNumber` builds on, if the operand is available. -/
theorem printNumber (h : d.Built policy) {x : Operand} (hx : d.IsAvailable x) :
    (d.printNumber x).Built policy := by
  obtain ⟨hdouble, hx'⟩ := h.asDouble hx
  exact hdouble.printf "%f\n" hx'

end Built

end Draft

/-! ### Calls lead to built drafts -/

namespace Emit

variable {α β : Type} {options : Options} {d d' : Draft} {x : Emit α} {out : α → List Operand}

/-- `Builds options d x out`: on everything that follows `d`, `x` leads to what follows a draft that
    was built from `d`, whether `x` succeeds or fails, and what `out` gives of its result is
    available from then on. -/
def Builds (options : Options) (d : Draft) (x : Emit α) (out : α → List Operand) : Prop :=
  ∀ c : Compilation, c.Follows options d → ∃ d', (x c).2.Follows options d' ∧
    d'.Built options.reads ∧
    Grows d d' ∧ ∀ a, (x c).1 = .ok a → ∀ y ∈ out a, d'.IsAvailable y

/-- A step that leads to a built draft builds it. -/
theorem Leads.builds {Q : α → Prop} (h : Leads options d x Q d') (hd' : d'.Built options.reads)
    (hg : Grows d d') (hout : ∀ a, Q a → ∀ y ∈ out a, d'.IsAvailable y) :
    Builds options d x out := by
  intro c hc
  obtain ⟨a, c', hx, ha, hc'⟩ := h c hc
  rw [hx]
  refine ⟨d', hc', hd', hg, fun b hb => ?_⟩
  obtain rfl := Except.ok.inj hb
  exact hout a ha

/-- A step that stops at a built draft builds it. -/
theorem Stops.builds {e : EmitError} (h : Stops options d x e d') (hd' : d'.Built options.reads)
    (hg : Grows d d') : Builds options d x out := by
  intro c hc
  obtain ⟨c', hx, hc'⟩ := h c hc
  rw [hx]
  exact ⟨d', hc', hd', hg, fun b hb => by cases hb⟩

/-- Steps in a row build on. The second may use what the first hands out. -/
theorem Builds.bind {next : α → Emit β} {out' : β → List Operand} (hx : Builds options d x out)
    (hnext : ∀ (d' : Draft) (a : α), d'.Built options.reads → Grows d d' →
      (∀ y ∈ out a, d'.IsAvailable y) → Builds options d' (next a) out') :
    Builds options d (x >>= next) out' := by
  intro c hc
  obtain ⟨d', hc', hd', hg, hout⟩ := hx c hc
  rcases hxc : x c with ⟨e | a, c'⟩
  · -- Where the first part stops, what it built up to there is all there is.
    rw [bind_of_error hxc]
    rw [hxc] at hc'
    exact ⟨d', hc', hd', hg, fun b hb => by cases hb⟩
  · rw [bind_of_ok hxc]
    rw [hxc] at hc' hout
    obtain ⟨d'', hc'', hd'', hg', hout'⟩ := hnext d' a hd' hg (hout a rfl) c' hc'
    exact ⟨d'', hc'', hd'', hg.trans hg', hout'⟩

/-- `pure a` builds nothing. -/
theorem builds_pure (hd : d.Built options.reads) {a : α} (ha : ∀ y ∈ out a, d.IsAvailable y) :
    Builds options d (pure a) out :=
  (leads_pure (Q := (· = a)) rfl).builds hd .refl fun b hb => by
    subst hb
    exact ha

variable (hd : d.Built options.reads)

include hd

/-- `resolve` builds `d.declare name`. -/
theorem builds_resolve (name : String) : Builds options d (resolve name) (fun _ => []) :=
  (leads_resolve name).builds (hd.declare name) (.declare name .refl) (by simp)

/-- `read` builds a draft, whether the policy forbids it or not. -/
theorem builds_read (name : String) : Builds options d (read name) ([·]) := by
  -- Only under `error` can a read fail, and then the variable is declared.
  by_cases hread : options.reads = .error → d.isWritten name = true
  · obtain ⟨hbuilt, hx⟩ := hd.read hread
    refine (leads_read hread).builds hbuilt (grows_read d _ name) fun a ha => ?_
    subst ha
    exact List.forall_mem_singleton.mpr hx
  · rw [Classical.not_imp, Bool.not_eq_true] at hread
    exact (stops_read hread.1 hread.2).builds (hd.declare name) (.declare name .refl)

/-- `write` builds `d.write name x`. -/
theorem builds_write (name : String) {x : Operand} (hx : d.IsAvailable x) :
    Builds options d (write name x) (fun _ => []) :=
  (leads_write name x).builds (hd.write name hx) (grows_write d name x) (by simp)

/-- `apply` builds a draft, whatever the types of its operands are. -/
theorem builds_apply (op : BinaryOperator) {x y : Operand} (hx : d.IsAvailable x)
    (hy : d.IsAvailable y) : Builds options d (apply x y op) ([·]) := by
  have hcomputable : ∀ op : Operator, Builds options d (apply x y op.named) ([·]) := by
    intro op
    obtain ⟨hbuilt, hx', hy'⟩ := hd.asDoubles hx hy
    -- A whole number is no operand: then only the conversions of the operands are added.
    by_cases htypes : ((d.asDouble x).2.asDouble y).2.body.typeOf (d.asDouble x).1 = .double ∧
        ((d.asDouble x).2.asDouble y).2.body.typeOf ((d.asDouble x).2.asDouble y).1 = .double
    · refine (leads_apply_of_typeOf op htypes.1 htypes.2).builds
        (hbuilt.operate op hx' hy' htypes.1 htypes.2) (grows_apply d op x y) fun a ha => ?_
      subst ha
      exact List.forall_mem_singleton.mpr (isAvailable_next _ _ _ _)
    · obtain ⟨e, hstops⟩ := stops_apply op htypes
      exact hstops.builds hbuilt ((grows_asDouble d x).trans (grows_asDouble _ y))
  cases op with
  | arithmetic op => exact hcomputable (.arithmetic op)
  | comparison condition => exact hcomputable (.comparison condition)
  | equality => exact (stops_equality x y).builds hd .refl

/-- `binaryOp` builds a draft, whatever its symbol is. -/
theorem builds_binaryOp (symbol : String) {x y : Operand} (hx : d.IsAvailable x)
    (hy : d.IsAvailable y) : Builds options d (binaryOp x y symbol) ([·]) := by
  cases hop : BinaryOperator.ofSymbol? symbol with
  | none => exact (stops_binaryOp hop x y).builds hd .refl
  | some op =>
    rw [binaryOp, hop]
    exact builds_apply hd op hx hy

/-- `printFormatted` builds `d.printf format x`. -/
theorem builds_printFormatted (format : String) {x : Operand} (hx : d.IsAvailable x) :
    Builds options d (printFormatted format x) ([·]) := by
  refine (leads_printFormatted format x).builds (hd.printf format hx) (grows_printf d format x)
    fun a ha => ?_
  subst ha
  exact List.forall_mem_singleton.mpr (d.isAvailable_printf format x)

/-- `printNumber` builds `d.printNumber x`. -/
theorem builds_printNumber {x : Operand} (hx : d.IsAvailable x) :
    Builds options d (printNumber x) ([·]) := by
  refine (leads_printNumber x).builds (hd.printNumber hx) (grows_printNumber d x) fun a ha => ?_
  subst ha
  exact List.forall_mem_singleton.mpr (isAvailable_printf _ _ _)

/-- `printString` builds `d.printString text`. -/
theorem builds_printString (text : String) : Builds options d (printString text) ([·]) := by
  refine (leads_printString text).builds (hd.printString text) (grows_printString d text)
    fun a ha => ?_
  subst ha
  exact List.forall_mem_singleton.mpr ((d.constant text).isAvailable_printf _ _)

end Emit

section

variable {options : Options} {d : Draft}

open Emit

/-- Every call builds a draft, if its operands are available. -/
theorem Call.builds_emit (hd : d.Built options.reads) (call : Call Operand)
    (h : ∀ x ∈ call.operands, d.IsAvailable x) : Builds options d call.emit id := by
  -- Every operand of a call is available, so each step finds what it needs.
  cases call with
  | constant value => exact builds_pure hd (List.forall_mem_singleton.mpr trivial)
  | read name => exact (builds_read hd name).bind fun _ _ hd' _ ha => builds_pure hd' ha
  | write name x =>
    have hx : d.IsAvailable x := h x (by simp [operands])
    exact (builds_write hd name hx).bind fun _ _ hd' _ ha => builds_pure hd' ha
  | binaryOp x y symbol =>
    have hx : d.IsAvailable x := h x (by simp [operands])
    have hy : d.IsAvailable y := h y (by simp [operands])
    exact (builds_binaryOp hd symbol hx hy).bind fun _ _ hd' _ ha => builds_pure hd' ha
  | apply x y op =>
    have hx : d.IsAvailable x := h x (by simp [operands])
    have hy : d.IsAvailable y := h y (by simp [operands])
    exact (builds_apply hd op hx hy).bind fun _ _ hd' _ ha => builds_pure hd' ha
  | printNumber x =>
    have hx : d.IsAvailable x := h x (by simp [operands])
    exact (builds_printNumber hd hx).bind fun _ _ hd' _ ha => builds_pure hd' ha
  | printString text =>
    exact (builds_printString hd text).bind fun _ _ hd' _ ha => builds_pure hd' ha

/-- If a step builds a draft and hands out one operand, that operand and the stack are available. -/
theorem builds_cons {x : Emit Operand} {stack : List Operand} (hx : Builds options d x ([·]))
    (hstack : ∀ y ∈ stack, d.IsAvailable y) : Builds options d (return (← x) :: stack) id :=
  hx.bind fun _ _ hd' hg ha => builds_pure hd' (List.forall_mem_cons.mpr
    ⟨List.forall_mem_singleton.mp ha, fun y hy => (hstack y hy).grows hg⟩)

/-- If a step builds a draft, the rest of the stack is still available. -/
theorem builds_rest {α : Type} {x : Emit α} {out : α → List Operand} {stack : List Operand}
    (hx : Builds options d x out) (hstack : ∀ y ∈ stack, d.IsAvailable y) :
    Builds options d (x >>= fun _ => pure stack) id :=
  hx.bind fun _ _ hd' hg _ => builds_pure hd' fun y hy => (hstack y hy).grows hg

/-- Every step of a script builds a draft, if the operands on the stack are available. -/
theorem Step.builds_emit (hd : d.Built options.reads) (step : Step) {stack : List Operand}
    (hstack : ∀ y ∈ stack, d.IsAvailable y) : Builds options d (step.emit stack) id := by
  have hnothing : ∀ stack : List Operand, (∀ y ∈ stack, d.IsAvailable y) →
      Builds options d (pure stack) id := fun stack h => builds_pure hd h
  -- Steps that lack their operands do nothing. All others are calls.
  cases step with
  | push value => exact hnothing _ (List.forall_mem_cons.mpr ⟨trivial, hstack⟩)
  | read name => exact builds_cons (builds_read hd name) hstack
  | apply symbol =>
    match stack with
    | [] => exact hnothing _ hstack
    | [x] => exact hnothing _ hstack
    | y :: x :: stack =>
      obtain ⟨hy, hx, hrest⟩ : d.IsAvailable y ∧ d.IsAvailable x ∧
          ∀ z ∈ stack, d.IsAvailable z := by
        simpa using hstack
      exact builds_cons (builds_binaryOp hd symbol.text hx hy) hrest
  | negate =>
    match stack with
    | [] => exact hnothing _ hstack
    | x :: stack =>
      obtain ⟨hx, hrest⟩ := List.forall_mem_cons.mp hstack
      exact builds_cons (builds_apply hd _ trivial hx) hrest
  | write name =>
    match stack with
    | [] => exact hnothing _ hstack
    | x :: stack =>
      obtain ⟨hx, hrest⟩ := List.forall_mem_cons.mp hstack
      exact builds_rest (builds_write hd name hx) hrest
  | printNumber =>
    match stack with
    | [] => exact hnothing _ hstack
    | x :: stack =>
      obtain ⟨hx, hrest⟩ := List.forall_mem_cons.mp hstack
      exact builds_rest (builds_printNumber hd hx) hrest
  | printString text => exact builds_rest (builds_printString hd text) hstack

/-- Steps in a row build a draft, up to the first that fails. -/
theorem Step.builds_emitList (hd : d.Built options.reads) (steps : List Step) {stack : List Operand}
    (hstack : ∀ y ∈ stack, d.IsAvailable y) : Builds options d (Step.emitList steps stack) id := by
  induction steps generalizing d stack with
  | nil => exact builds_pure hd hstack
  | cons step steps ih =>
    rw [Step.emitList, List.foldlM_cons]
    exact (step.builds_emit hd hstack).bind fun _ _ hd' _ ha => ih hd' ha

end

/-- `compileInto` leaves what the steps of the script leave. What is wrong behind them changes
    nothing. -/
theorem compileInto_snd (source : String) (c : Compilation) :
    (compileInto source c).2 = (Step.emitList ((parse source).steps.map (·.step)) [] c).2 := by
  rcases hlist : Step.emitList ((parse source).steps.map (·.step)) [] c with ⟨e | stack, c'⟩
  · obtain ⟨span, hinto⟩ := compileInto_of_error hlist
    rw [hinto, hlist]
  · rw [compileInto_of_ok hlist, hlist]

/-- Every reachable compilation follows a built draft, and everything that was handed out is
    available in it. -/
theorem Compilation.Reachable.exists_built {options : Options} {c : Compilation}
    {handles : List Operand} (h : Compilation.Reachable options c handles) :
    ∃ d, c.Follows options d ∧ d.Built options.reads ∧ ∀ x ∈ handles, d.IsAvailable x := by
  have hoperand : ∀ {d : Draft} {handles : List Operand} {x : Operand},
      (∀ y ∈ handles, d.IsAvailable y) → x.IsConstant ∨ x ∈ handles → d.IsAvailable x :=
    fun hhandles hx => hx.elim (fun hx => isAvailable_of_isConstant hx _) (hhandles _)
  -- By induction on the calls: each of them builds on, and hands out what is available then.
  induction h with
  | new => exact ⟨{}, follows_empty options, .empty, by simp⟩
  | @call c handles call _ hcall ih =>
    obtain ⟨d, hc, hd, hhandles⟩ := ih
    obtain ⟨d', hc', hd', hg, hout⟩ :=
      call.builds_emit hd (fun x hx => hoperand hhandles (hcall x hx)) c hc
    refine ⟨d', hc', hd', fun x hx => ?_⟩
    rcases List.mem_append.mp hx with hx | hx
    · exact (hhandles x hx).grows hg
    · cases hresult : (call.emit c).1 with
      | error e => simp [hresult, handedOut] at hx
      | ok xs => exact hout xs hresult x (by simpa [hresult, handedOut] using hx)
  | @resolve c handles name _ ih =>
    obtain ⟨d, hc, hd, hhandles⟩ := ih
    obtain ⟨d', hc', hd', hg, -⟩ := Emit.builds_resolve hd name c hc
    exact ⟨d', hc', hd', fun x hx => (hhandles x hx).grows hg⟩
  | @printFormatted c handles format x _ hx ih =>
    obtain ⟨d, hc, hd, hhandles⟩ := ih
    obtain ⟨d', hc', hd', hg, hout⟩ :=
      Emit.builds_printFormatted hd format (hoperand hhandles hx) c hc
    refine ⟨d', hc', hd', fun y hy => ?_⟩
    rcases List.mem_append.mp hy with hy | hy
    · exact (hhandles y hy).grows hg
    · cases hresult : (Emit.printFormatted format x c).1 with
      | error e => simp [hresult, Except.toOption] at hy
      | ok z => exact hout z hresult y (by simpa [hresult, Except.toOption] using hy)
  | @script c handles source _ ih =>
    obtain ⟨d, hc, hd, hhandles⟩ := ih
    obtain ⟨d', hc', hd', hg, -⟩ :=
      Step.builds_emitList hd ((parse source).steps.map (·.step)) (List.forall_mem_nil _) c hc
    refine ⟨d', ?_, hd', fun x hx => (hhandles x hx).grows hg⟩
    rw [compileInto_snd]
    exact hc'

end Straightline
