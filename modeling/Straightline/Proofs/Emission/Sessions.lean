import Straightline.Proofs.Emission.Calls
import Straightline.Proofs.Execution.Running

/-!
# Sessions

Calls on a compilation, one after another, that can use what earlier calls handed out.

* `Argument` is what a call is given, and `Argument.operand?` finds the operand that is meant.
* `Session` makes calls on a compilation: `Session.make` one, and `Session.run` all of a list.
* `Call.traverse` looks the operands of a call up, and `Call.exists_traverse` compares two such
  look-ups through `Call.Matches`.
-/

namespace Straightline

open Draft

/-- What a call is given: a constant, or the number that was handed out with this index. -/
inductive Argument where
  | constant (value : Double)
  | integer (value : Int32)
  | result (index : Nat)
  deriving DecidableEq

namespace Argument

/-- The operand that is meant, after these were handed out. -/
def operand? (handles : List Operand) : Argument → Option Operand
  | constant value => some (.double value)
  | integer value => some (.i32 value)
  | result index => handles[index]?

end Argument

namespace Call

variable {α β : Type}

/-- The call with other operands, if all of them can be found. -/
def traverse (f : α → Option β) : Call α → Option (Call β)
  | constant value => some (constant value)
  | read name => some (read name)
  | write name value => return write name (← f value)
  | binaryOp lhs rhs symbol => return binaryOp (← f lhs) (← f rhs) symbol
  | apply lhs rhs op => return apply (← f lhs) (← f rhs) op
  | printNumber value => return printNumber (← f value)
  | printString text => some (printString text)

/-- Whether a call prints. -/
def isPrint : Call α → Bool
  | printNumber _ => true
  | printString _ => true
  | _ => false

/-- The operand that a call stores or prints. -/
def stored? : Call α → Option α
  | write _ value => some value
  | printNumber value => some value
  | _ => none

/-- Whether a call stores or prints no integer constant. -/
def IsNumeric (call : Call Argument) : Prop := ∀ n, call.stored? ≠ some (.integer n)

end Call

/-- A compilation under calls, and the numbers that calls handed out. -/
structure Session where
  compilation : Compilation
  handles : List Operand := []

namespace Session

/-- Make a call, unless it is given a number that was not handed out. What a print hands out is no
    number. -/
def make (s : Session) (call : Call Argument) : Option Session := do
  let call ← call.traverse (·.operand? s.handles)
  let (result, compilation) := call.emit s.compilation
  return { compilation, handles := s.handles ++ if call.isPrint then [] else handedOut result }

/-- Make calls on a new compilation. -/
def run (options : Options) (calls : List (Call Argument)) : Option Session :=
  calls.foldlM make { compilation := { options } }

end Session

/-! ### Operators -/

/-- The operators that can be computed. -/
def Operator.all : List Operator :=
  [.arithmetic .add, .arithmetic .sub, .arithmetic .mul, .arithmetic .div, .comparison .greater,
    .comparison .less]

/-- The operator that is written so, if it can be computed. -/
def Operator.ofText? (text : String) : Option Operator := all.find? (·.symbol.text = text)

/-- The operator, if it can be computed. -/
def BinaryOperator.operator? : BinaryOperator → Option Operator
  | arithmetic op => some (.arithmetic op)
  | comparison condition => some (.comparison condition)
  | equality => none

/-- If `ofText?` finds an operator, then `ofSymbol?` finds it by the same text. -/
theorem Operator.ofText?_eq_some {text : String} {op : Operator} (h : ofText? text = some op) :
    BinaryOperator.ofSymbol? text = some op.named := by
  have htext : op.symbol.text = text := by simpa using List.find?_some h
  rw [← htext, ofSymbol?_text]

/-- If it finds none, then `ofSymbol?` finds none or `==`. -/
theorem Operator.ofText?_eq_none {text : String} (h : ofText? text = none) :
    BinaryOperator.ofSymbol? text = none ∨ BinaryOperator.ofSymbol? text = some .equality := by
  have hne : ∀ op ∈ all, op.symbol.text ≠ text := fun op hop => by
    simpa using List.find?_eq_none.mp h op hop
  unfold BinaryOperator.ofSymbol?
  split
  · exact absurd rfl (hne (.arithmetic .add) (by simp [all]))
  · exact absurd rfl (hne (.arithmetic .sub) (by simp [all]))
  · exact absurd rfl (hne (.arithmetic .mul) (by simp [all]))
  · exact absurd rfl (hne (.arithmetic .div) (by simp [all]))
  · exact absurd rfl (hne (.comparison .greater) (by simp [all]))
  · exact absurd rfl (hne (.comparison .less) (by simp [all]))
  · exact .inr rfl
  · exact .inl rfl

/-- `operator?` and `named` are inverse. -/
theorem BinaryOperator.named_of_operator? {op : BinaryOperator} {o : Operator}
    (h : op.operator? = some o) :
    o.named = op := by
  cases op <;> cases h <;> rfl

namespace Emit

variable {options : Options} {d : Draft} (x y : Operand)

/-- `binaryOp` with the text of an operator is `apply`. -/
theorem binaryOp_of_ofText? {symbol : String} {op : Operator}
    (h : Operator.ofText? symbol = some op) :
    binaryOp x y symbol = apply x y op.named := by
  rw [binaryOp, Operator.ofText?_eq_some h]

/-- `binaryOp` stops at a symbol that cannot be computed, before anything is added. -/
theorem exists_stops_binaryOp {symbol : String} (h : Operator.ofText? symbol = none) :
    ∃ e, Stops options d (binaryOp x y symbol) e d := by
  rcases Operator.ofText?_eq_none h with hnone | hequality
  · exact ⟨_, stops_binaryOp hnone x y⟩
  · rw [binaryOp, hequality]
    exact ⟨_, stops_equality x y⟩

/-- `apply` stops at an operator that cannot be computed, and leaves the draft. -/
theorem exists_stops_apply {op : BinaryOperator} (h : op.operator? = none) :
    ∃ e, Stops options d (apply x y op) e d := by
  cases op with
  | arithmetic | comparison => cases h
  | equality => exact ⟨_, stops_equality x y⟩

end Emit

/-! ### Looking up operands -/

/-- Two calls of the same kind with related operands. -/
inductive Call.Matches {α β : Type} (R : α → β → Prop) : Call α → Call β → Prop
  | constant (value : Double) : Matches R (.constant value) (.constant value)
  | read (name : String) : Matches R (.read name) (.read name)
  | write (name : String) {x : α} {y : β} : R x y → Matches R (.write name x) (.write name y)
  | binaryOp (symbol : String) {x x' : α} {y y' : β} : R x y → R x' y' →
    Matches R (.binaryOp x x' symbol) (.binaryOp y y' symbol)
  | apply (op : BinaryOperator) {x x' : α} {y y' : β} : R x y → R x' y' →
    Matches R (.apply x x' op) (.apply y y' op)
  | printNumber {x : α} {y : β} : R x y → Matches R (.printNumber x) (.printNumber y)
  | printString (text : String) : Matches R (.printString text) (.printString text)

/-- What stands at the same place in related lists is related. -/
theorem exists_getElem?_of_forall₂ {α β : Type} {R : α → β → Prop} {xs : List α} {ys : List β}
    (h : List.Forall₂ R xs ys) {i : Nat} {x : α} (hx : xs[i]? = some x) :
    ∃ y, ys[i]? = some y ∧ R x y := by
  obtain ⟨hlt, rfl⟩ := List.getElem?_eq_some_iff.mp hx
  have hlt' : i < ys.length := h.length_eq ▸ hlt
  exact ⟨ys[i], List.getElem?_eq_getElem hlt', List.Forall₂.get h hlt hlt'⟩

namespace Call

variable {α β γ : Type} {f : α → Option β} {call : Call α} {made : Call β}

/-- `call.traverse f` is `made` iff both are of the same kind and `f` finds the operands of `made`
    for those of `call`. -/
theorem traverse_eq_some_iff :
    call.traverse f = some made ↔ call.Matches (fun a x => f a = some x) made := by
  constructor
  · intro h
    -- By the number of arguments: each has to be found.
    cases call with
    | constant | read | printString =>
      obtain rfl := Option.some.inj h
      constructor
    | write name a | printNumber a =>
      obtain ⟨x, hx, hmade⟩ := Option.bind_eq_some_iff.mp h
      obtain rfl := Option.some.inj hmade
      constructor
      exact hx
    | binaryOp a a' symbol | apply a a' op =>
      obtain ⟨x, hx, h⟩ := Option.bind_eq_some_iff.mp h
      obtain ⟨x', hx', hmade⟩ := Option.bind_eq_some_iff.mp h
      obtain rfl := Option.some.inj hmade
      constructor
      · exact hx
      · exact hx'
  · intro h
    cases h <;> simp_all [traverse]

/-- If operands are found with `g` whenever they are with `f`, then so are calls, and the two calls
    match. -/
theorem exists_traverse {g : α → Option γ} {R : β → γ → Prop}
    (hfind : ∀ {a : α} {x : β}, f a = some x → ∃ y, g a = some y ∧ R x y)
    (h : call.traverse f = some made) :
    ∃ meant, call.traverse g = some meant ∧ made.Matches R meant := by
  simp only [traverse_eq_some_iff] at h ⊢
  -- What `f` finds for an argument `g` finds too, and the two are related.
  cases h with
  | constant value => exact ⟨_, .constant value, .constant value⟩
  | read name => exact ⟨_, .read name, .read name⟩
  | write name hx =>
    obtain ⟨y, hy, hxy⟩ := hfind hx
    exact ⟨_, .write name hy, .write name hxy⟩
  | binaryOp symbol hx hx' =>
    obtain ⟨y, hy, hxy⟩ := hfind hx
    obtain ⟨y', hy', hxy'⟩ := hfind hx'
    exact ⟨_, .binaryOp symbol hy hy', .binaryOp symbol hxy hxy'⟩
  | apply op hx hx' =>
    obtain ⟨y, hy, hxy⟩ := hfind hx
    obtain ⟨y', hy', hxy'⟩ := hfind hx'
    exact ⟨_, .apply op hy hy', .apply op hxy hxy'⟩
  | printNumber hx =>
    obtain ⟨y, hy, hxy⟩ := hfind hx
    exact ⟨_, .printNumber hy, .printNumber hxy⟩
  | printString text => exact ⟨_, .printString text, .printString text⟩

/-- The operand that a call stores or prints is the one that was found for it. -/
theorem stored?_traverse (h : call.traverse f = some made) :
    made.stored? = call.stored?.bind f := by
  cases traverse_eq_some_iff.mp h with
  | write name hx | printNumber hx => exact hx.symm
  | _ => rfl

/-- Other operands do not change which variable a call reads or writes. -/
theorem read_or_write_traverse (h : call.traverse f = some made) (name : String) :
    (made = .read name ↔ call = .read name) ∧
      ((∃ y, made = .write name y) ↔ ∃ x, call = .write name x) := by
  cases traverse_eq_some_iff.mp h <;> simp

/-- Other operands do not change whether a call prints. -/
theorem isPrint_traverse (h : call.traverse f = some made) : made.isPrint = call.isPrint := by
  cases traverse_eq_some_iff.mp h <;> rfl

/-- Every operand of the call was found for an argument. -/
theorem mem_operands_traverse (h : call.traverse f = some made) {x : β} (hx : x ∈ made.operands) :
    ∃ a, f a = some x := by
  cases traverse_eq_some_iff.mp h with
  | constant | read | printString => simp [operands] at hx
  | write name hy | printNumber hy =>
    obtain rfl := List.mem_singleton.mp hx
    exact ⟨_, hy⟩
  | binaryOp symbol hy hy' | apply op hy hy' =>
    rcases List.mem_pair.mp hx with rfl | rfl
    · exact ⟨_, hy⟩
    · exact ⟨_, hy'⟩

end Call

end Straightline
