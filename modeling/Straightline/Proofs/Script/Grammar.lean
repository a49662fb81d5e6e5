import Straightline.Proofs.Script.Tree
import Straightline.Script.TokenStream

/-!
# The grammar of scripts

Which tokens make which tree, said by derivations and without a parser:

```text
program    := (statement? END)* statement?
statement  := print (STRING | expression) | NAME = expression
expression := operands of level 2 joined by operators of level 2
level k+1  := operands of level k joined by operators of level k
level 0    := - level 0 | NUMBER | NAME | ( expression )
```

The operators are a parameter: a type `ω` and the symbols that spell them. With `Operator.symbol`
they are `>` and `<` on level 2, `+` and `-` on level 1, `*` and `/` on level 0; with `id` they are
all symbols.

* `Expr.Reads`, `Statement.Reads` and `Script.Reads` are the derivations.
* `Lexes` says that a source is made of tokens only, and `ParsesTo` that a script is its tree.
* `Script.Reads.exists_operators` restricts a derivation to the operators that can be computed.
-/

namespace Straightline

section

variable {ω : Type} (spell : ω → Symbol)

/-! ### Derivations -/

/-- `e.Reads spell k ts`: the tokens are the expression `e` as an operand of level `k`. Every
    expression is an operand of level 3. -/
inductive Expr.Reads : Nat → List Token → Expr ω → Prop
  | number (value : Double) : Reads 0 [.number value] (.literal value)
  | name (name : String) : Reads 0 [.ident name] (.var name)
  | parens {ts : List Token} {e : Expr ω} :
    Reads 3 ts e → Reads 0 (.lparen :: ts ++ [.rparen]) e
  /-- A minus sign right before a number belongs to it. -/
  | negative (value : Double) : Reads 0 [.op .minus, .number value] (.literal (-value))
  | negate {ts : List Token} {e : Expr ω} :
    Reads 0 ts e → (∀ value, ts.head? ≠ some (.number value)) →
      Reads 0 (.op .minus :: ts) (.negate e)
  | operand {k : Nat} {ts : List Token} {e : Expr ω} : Reads k ts e → Reads (k + 1) ts e
  /-- Operators of one level associate to the left. -/
  | join {k : Nat} {ts us : List Token} {lhs rhs : Expr ω} (op : ω) :
    Reads (k + 1) ts lhs → (spell op).level = k → Reads k us rhs →
      Reads (k + 1) (ts ++ .op (spell op) :: us) (.binary op lhs rhs)

/-- `s.Reads spell ts`: the tokens are the statement `s`. -/
inductive Statement.Reads : List Token → Statement ω → Prop
  | printString (text : String) : Reads [.print, .str text] (.printString text)
  | printNumber {ts : List Token} {e : Expr ω} :
    e.Reads spell 3 ts → Reads (.print :: ts) (.printNumber e)
  | assign {ts : List Token} {e : Expr ω} (name : String) :
    e.Reads spell 3 ts → Reads (.ident name :: .assign :: ts) (.assign name e)

/-- `script.Reads spell ts`: the tokens are the statements of `script`. Each has an end of statement
    behind it, which may also stand alone, and which may be missing behind the last. -/
inductive Script.Reads : List Token → Script ω → Prop
  | nil : Reads [] []
  | stop {ts : List Token} {script : Script ω} : Reads ts script → Reads (.stop :: ts) script
  | last {ts : List Token} {s : Statement ω} : s.Reads spell ts → Reads ts [s]
  | cons {ts us : List Token} {s : Statement ω} {script : Script ω} :
    s.Reads spell ts → Reads us script → Reads (ts ++ .stop :: us) (s :: script)

/-- An expression has tokens. -/
theorem Expr.Reads.ne_nil {k : Nat} {ts : List Token} {e : Expr ω} (h : e.Reads spell k ts) :
    ts ≠ [] := by
  induction h with
  | operand _ ih => exact ih
  | _ => simp

/-- An operand that begins with a number is this number. -/
theorem Expr.Reads.eq_number {e : Expr ω} {value : Double} {ts : List Token}
    (h : e.Reads spell 0 (.number value :: ts)) : ts = [] := by
  generalize hus : (.number value :: ts : List Token) = us at h
  generalize hk : 0 = k at h
  cases h <;> simp_all

/-- A minus sign in front of an operand makes an operand. -/
theorem Expr.Reads.exists_minus {e : Expr ω} {ts : List Token} (h : e.Reads spell 0 ts) :
    ∃ e' : Expr ω, e'.Reads spell 0 (.op .minus :: ts) := by
  by_cases hnumber : ∃ value, ts.head? = some (.number value)
  · obtain ⟨value, hvalue⟩ := hnumber
    obtain ⟨us, rfl⟩ := List.head?_eq_some_iff.mp hvalue
    obtain rfl := h.eq_number spell
    exact ⟨_, .negative value⟩
  · exact ⟨_, .negate h fun value hvalue => hnumber ⟨value, hvalue⟩⟩

/-! ### Operators of a sentence -/

/-- Every operator token of an expression spells an operator, or is a minus sign. -/
theorem Expr.Reads.symbol_mem {k : Nat} {ts : List Token} {e : Expr ω} (h : e.Reads spell k ts)
    {s : Symbol} (hs : .op s ∈ ts) : s = .minus ∨ ∃ op, spell op = s := by
  induction h with
  | number | name => simp at hs
  | parens _ ih => exact ih (by simpa using hs)
  -- The sign of a number and the one of a negation are the symbol in front.
  | negative => exact .inl (by simpa using hs)
  | negate _ _ ih =>
    rcases List.mem_cons.mp hs with hs | hs
    · exact .inl (by simpa using hs)
    · exact ih hs
  | operand _ ih => exact ih hs
  | join op _ _ _ ihl ihr =>
    rcases List.mem_append.mp hs with hs | hs
    · exact ihl hs
    · rcases List.mem_cons.mp hs with hs | hs
      · exact .inr ⟨op, by simpa using hs.symm⟩
      · exact ihr hs

/-- Every operator token of a statement spells an operator, or is a minus sign. -/
theorem Statement.Reads.symbol_mem {ts : List Token} {st : Statement ω} (h : st.Reads spell ts)
    {s : Symbol} (hs : .op s ∈ ts) : s = .minus ∨ ∃ op, spell op = s := by
  cases h with
  | printString => simp at hs
  | printNumber h => exact h.symbol_mem spell (by simpa using hs)
  | assign _ h => exact h.symbol_mem spell (by simpa using hs)

/-- Every operator token of a program spells an operator, or is a minus sign. -/
theorem Script.Reads.symbol_mem {ts : List Token} {script : Script ω} (h : script.Reads spell ts)
    {s : Symbol} (hs : .op s ∈ ts) : s = .minus ∨ ∃ op, spell op = s := by
  induction h with
  | nil => simp at hs
  | stop _ ih => exact ih (by simpa using hs)
  | last h => exact h.symbol_mem spell hs
  | cons h _ ih =>
    rcases List.mem_append.mp hs with hs | hs
    · exact h.symbol_mem spell hs
    · exact ih (by simpa using hs)

/-! ### Exchanging operators for symbols -/

/-- `e.Reads spell k ts` gives `(e.map spell).Reads id k ts`. -/
theorem Expr.Reads.mapped {k : Nat} {ts : List Token} {e : Expr ω} (h : e.Reads spell k ts) :
    (e.map spell).Reads id k ts := by
  induction h with
  | number value => exact .number value
  | name name => exact .name name
  | parens _ ih => exact .parens ih
  | negative value => exact .negative value
  | negate _ hts ih => exact .negate ih hts
  | operand _ ih => exact .operand ih
  | join op _ hop _ ihl ihr => exact .join (spell op) ihl hop ihr

/-- `s.Reads spell ts` gives `(s.map spell).Reads id ts`. -/
theorem Statement.Reads.mapped {ts : List Token} {s : Statement ω} (h : s.Reads spell ts) :
    (s.map spell).Reads id ts := by
  cases h with
  | printString text => exact .printString text
  | printNumber h => exact .printNumber (h.mapped spell)
  | assign name h => exact .assign name (h.mapped spell)

/-- `script.Reads spell ts` gives `(script.mapOperators spell).Reads id ts`. -/
theorem Script.Reads.mapped {ts : List Token} {script : Script ω} (h : script.Reads spell ts) :
    (script.mapOperators spell).Reads id ts := by
  induction h with
  | nil => exact .nil
  | stop _ ih => exact .stop ih
  | last h => exact .last (h.mapped spell)
  | cons h _ ih => exact .cons (h.mapped spell) ih

end

/-- If all symbols of an expression can be computed, `e.Reads id k ts` comes from an expression with
    operators. -/
theorem Expr.Reads.exists_operators {k : Nat} {ts : List Token} {e : Expr Symbol}
    (h : e.Reads id k ts) (hops : ∀ s ∈ e.operators, s.IsComputable) :
    ∃ e' : Expr Operator, e'.map Operator.symbol = e ∧ e'.Reads Operator.symbol k ts := by
  induction h with
  | number value => exact ⟨_, rfl, .number value⟩
  | name name => exact ⟨_, rfl, .name name⟩
  | parens _ ih =>
    obtain ⟨e', rfl, h'⟩ := ih hops
    exact ⟨e', rfl, .parens h'⟩
  | negative value => exact ⟨_, rfl, .negative value⟩
  | negate _ hts ih =>
    obtain ⟨e', rfl, h'⟩ := ih hops
    exact ⟨.negate e', rfl, .negate h' hts⟩
  | operand _ ih =>
    obtain ⟨e', rfl, h'⟩ := ih hops
    exact ⟨e', rfl, .operand h'⟩
  | join s _ hlevel _ ihl ihr =>
    -- Only a join has a symbol of its own, which spells an operator by assumption.
    obtain ⟨op, rfl⟩ := hops s (by simp [Expr.operators])
    obtain ⟨l', rfl, hl⟩ := ihl fun s hs => hops s (by simp [Expr.operators, hs])
    obtain ⟨r', rfl, hr⟩ := ihr fun s hs => hops s (by simp [Expr.operators, hs])
    exact ⟨.binary op l' r', rfl, .join op hl hlevel hr⟩

/-- If all symbols of a statement can be computed, `s.Reads id ts` comes from a statement with
    operators. -/
theorem Statement.Reads.exists_operators {ts : List Token} {s : Statement Symbol}
    (h : s.Reads id ts) (hops : ∀ s' ∈ s.operators, s'.IsComputable) :
    ∃ s' : Statement Operator, s'.map Operator.symbol = s ∧ s'.Reads Operator.symbol ts := by
  cases h with
  | printString text => exact ⟨_, rfl, .printString text⟩
  | printNumber h =>
    obtain ⟨e', rfl, h'⟩ := h.exists_operators hops
    exact ⟨.printNumber e', rfl, .printNumber h'⟩
  | assign name h =>
    obtain ⟨e', rfl, h'⟩ := h.exists_operators hops
    exact ⟨.assign name e', rfl, .assign name h'⟩

/-- If all symbols of a script can be computed, `script.Reads id ts` comes from a script with
    operators. -/
theorem Script.Reads.exists_operators {ts : List Token} {script : Script Symbol}
    (h : script.Reads id ts) (hops : ∀ s ∈ script.operators, s.IsComputable) :
    ∃ script' : Script Operator,
      script'.mapOperators Operator.symbol = script ∧ script'.Reads Operator.symbol ts := by
  induction h with
  | nil => exact ⟨[], rfl, .nil⟩
  | stop _ ih =>
    obtain ⟨script', rfl, h'⟩ := ih hops
    exact ⟨script', rfl, .stop h'⟩
  | last h =>
    obtain ⟨s', rfl, h'⟩ := h.exists_operators fun s hs => hops s (by simp [Script.operators, hs])
    exact ⟨[s'], rfl, .last h'⟩
  | cons h _ ih =>
    obtain ⟨s', rfl, h'⟩ := h.exists_operators fun s hs => hops s (by simp [Script.operators, hs])
    obtain ⟨script', rfl, h''⟩ := ih fun s hs => hops s (by
      rw [Script.operators, List.flatMap_cons]
      exact List.mem_append_right _ hs)
    exact ⟨s' :: script', rfl, .cons h' h''⟩

/-! ### Sources -/

/-- `Lexes source tokens`: the source is cut into these tokens, and nothing in it is no token. -/
def Lexes (source : String) (tokens : List Token) : Prop :=
  (lexemes source).map (·.outcome) = tokens.map .ok

/-- `Lexes` can be decided, since it is about tokens alone. -/
theorem lexes_iff {source : String} {tokens : List Token} :
    Lexes source tokens ↔ (lexemes source).map (·.outcome.toOption) = tokens.map some := by
  have htoOption : ∀ {x : Except Fault Token} {t : Token}, x.toOption = some t ↔ x = .ok t := by
    intro x t
    cases x <;> simp [Except.toOption]
  unfold Lexes
  generalize lexemes source = ls
  induction ls generalizing tokens with
  | nil => cases tokens <;> simp
  | cons l ls ih =>
    cases tokens with
    | nil => simp
    | cons t tokens => simp only [List.map_cons, List.cons.injEq, ih, htoOption]

instance (source : String) (tokens : List Token) : Decidable (Lexes source tokens) :=
  decidable_of_iff _ lexes_iff.symm

/-- `ParsesTo source script`: the tokens of the source are those of the script, whose operators can
    be computed. -/
def ParsesTo (source : String) (script : Script Operator) : Prop :=
  ∃ tokens, Lexes source tokens ∧ script.Reads Operator.symbol tokens

/-! ### A sample -/

/-- A source with a comparison, a variable that nothing is assigned to, both uses of a minus sign
    and both kinds of `print`. -/
def sampleSource : String := "y = 2 > -x\nprint -(y + x) * -3; print \"done\""

/-- The tree of the sample. -/
def sampleScript : Script Operator :=
  [.assign "y" (.binary (.comparison .greater) (.literal ⟨0x4000000000000000⟩)
    (.negate (.var "x"))),
   .printNumber (.binary (.arithmetic .mul)
    (.negate (.binary (.arithmetic .add) (.var "y") (.var "x"))) (.literal ⟨0xC008000000000000⟩)),
   .printString "done"]

/-- The tokens of the sample. -/
def sampleTokens : List Token :=
  [.ident "y", .assign, .number ⟨0x4000000000000000⟩, .op .greater, .op .minus, .ident "x", .stop,
   .print, .op .minus, .lparen, .ident "y", .op .plus, .ident "x", .rparen, .op .star, .op .minus,
   .number ⟨0x4008000000000000⟩, .stop, .print, .str "done"]

/-- The tokens of `sampleSource` are `sampleTokens`. -/
theorem lexes_sample : Lexes sampleSource sampleTokens := by
  decide +kernel

/-- The tree of `sampleSource` is `sampleScript`. -/
theorem parsesTo_sample : ParsesTo sampleSource sampleScript := by
  refine ⟨sampleTokens, lexes_sample, ?_⟩
  have hx : Expr.Reads Operator.symbol 0 [.ident "x"] (.var "x") := .name "x"
  have hy : Expr.Reads Operator.symbol 0 [.ident "y"] (.var "y") := .name "y"
  have hnegate := Expr.Reads.negate hx (by simp)
  -- `2 > -x`, read with both operands one level tighter.
  have hcompare := Expr.Reads.join (.comparison .greater)
    (.operand (.operand (.operand (.number ⟨0x4000000000000000⟩)))) rfl
    (.operand (.operand hnegate))
  have hsum := Expr.Reads.join (.arithmetic .add) (.operand (.operand hy)) rfl (.operand hx)
  have hparens := Expr.Reads.negate (.parens (.operand hsum)) (by simp)
  have hproduct := Expr.Reads.join (.arithmetic .mul) (.operand hparens) rfl
    (.negative ⟨0x4008000000000000⟩)
  exact .cons (.assign "y" hcompare)
    (.cons (.printNumber (.operand (.operand hproduct))) (.last (.printString "done")))

/-- The tree of a source in which every read has its assignment. -/
theorem parsesTo_assign_print : ParsesTo "x = 1; print x"
    [.assign "x" (.literal ⟨0x3FF0000000000000⟩), .printNumber (.var "x")] :=
  ⟨[.ident "x", .assign, .number ⟨0x3FF0000000000000⟩, .stop, .print,
    .ident "x"], by decide +kernel, .cons (.assign "x" (.operand (.operand (.operand (.number _)))))
      (.last (.printNumber (.operand (.operand (.operand (.name "x"))))))⟩

end Straightline
