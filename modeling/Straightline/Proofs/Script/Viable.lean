import Straightline.Proofs.Script.Lowering
import Straightline.Proofs.Script.Tiling

/-!
# Where reading fails

An error that is not about a stretch of text stands at the first token that no sentence can go on
with.

* `Grammar.IsOperand`, `Grammar.IsClause` and `Grammar.IsSentence` are the productions over tokens,
  with all symbols, and `Grammar.IsViable` says that a sentence starts with some tokens.
* `Grammar.OperandStuck`, `Grammar.StatementStuck` and `Grammar.ProgramStuck` say where the grammar
  is left: these tokens were read, and the next one does not go on with them. There is one
  constructor for each place where reading can fail.
* Stuck tokens are the beginning of a sentence (`ProgramStuck.isViable`). No stream that goes on in
  this way is read (`not_yields_program`). Wherever reading fails, it is stuck (`program_fails`).
* `compile_error_at_first_impossible` puts the three together.
-/

namespace Straightline

namespace Grammar

/-! ### Sentences -/

/-- Tokens make an operand of a level.

```text
expression := level 3
level 3    := level 2 (('>' | '<' | '==') level 2)*
level 2    := level 1 (('+' | '-') level 1)*
level 1    := level 0 (('*' | '/' | '%' | '^') level 0)*
level 0    := '-' level 0 | NUMBER | IDENT | '(' expression ')'
```
-/
inductive IsOperand : Nat → List Token → Prop
  | number (value : Double) : IsOperand 0 [.number value]
  | name (name : String) : IsOperand 0 [.ident name]
  | parens {ts : List Token} : IsOperand 3 ts → IsOperand 0 (.lparen :: ts ++ [.rparen])
  | negate {ts : List Token} : IsOperand 0 ts → IsOperand 0 (.op .minus :: ts)
  | operand {k : Nat} {ts : List Token} : IsOperand k ts → IsOperand (k + 1) ts
  | join {k : Nat} {ts us : List Token} (symbol : Symbol) :
    IsOperand (k + 1) ts → symbol.level = k →
    IsOperand k us → IsOperand (k + 1) (ts ++ .op symbol :: us)

/-- Tokens make a statement: `print (STRING | expression)` or `IDENT '=' expression`. -/
inductive IsClause : List Token → Prop
  | printString (text : String) : IsClause [.print, .str text]
  | printNumber {ts : List Token} : IsOperand 3 ts → IsClause (.print :: ts)
  | assign {ts : List Token} (name : String) :
    IsOperand 3 ts → IsClause (.ident name :: .assign :: ts)

/-- Tokens make a program: `(statement? END)* statement?`. -/
inductive IsSentence : List Token → Prop
  | nil : IsSentence []
  | last {ts : List Token} : IsClause ts → IsSentence ts
  | stop {ts : List Token} : IsSentence ts → IsSentence (.stop :: ts)
  | cons {ts us : List Token} : IsClause ts → IsSentence us → IsSentence (ts ++ .stop :: us)

/-- `IsViable ts`: some sentence starts with these tokens. -/
def IsViable (ts : List Token) : Prop := ∃ more, IsSentence (ts ++ more)

/-- No operand begins with a text. -/
theorem IsOperand.exists_cons {k : Nat} {ts : List Token} (h : IsOperand k ts) :
    ∃ t us, ts = t :: us ∧ ∀ text, t ≠ .str text := by
  induction h with
  | number value => exact ⟨.number value, [], rfl, by simp⟩
  | name name => exact ⟨.ident name, [], rfl, by simp⟩
  | @parens ts => exact ⟨.lparen, ts ++ [.rparen], rfl, by simp⟩
  | @negate ts => exact ⟨.op .minus, ts, rfl, by simp⟩
  | operand _ ih => exact ih
  | @join _ _ us symbol _ _ _ ih =>
    obtain ⟨t, ts, rfl, ht⟩ := ih
    exact ⟨t, ts ++ .op symbol :: us, rfl, ht⟩

/-- `IsOperand k ts` gives a tree: `e.Reads id k ts` for some `e`. -/
theorem IsOperand.exists_reads {k : Nat} {ts : List Token} (h : IsOperand k ts) :
    ∃ e : Expr Symbol, e.Reads id k ts := by
  induction h with
  | number value => exact ⟨_, .number value⟩
  | name name => exact ⟨_, .name name⟩
  | parens _ ih =>
    obtain ⟨e, he⟩ := ih
    exact ⟨e, .parens he⟩
  | negate _ ih =>
    obtain ⟨e, he⟩ := ih
    exact he.exists_minus _
  | operand _ ih =>
    obtain ⟨e, he⟩ := ih
    exact ⟨e, .operand he⟩
  | join symbol _ hlevel _ ihl ihr =>
    obtain ⟨l, hl⟩ := ihl
    obtain ⟨r, hr⟩ := ihr
    exact ⟨.binary symbol l r, .join symbol hl hlevel hr⟩

/-- `IsClause ts` gives a tree. -/
theorem IsClause.exists_reads {ts : List Token} (h : IsClause ts) :
    ∃ s : Statement Symbol, s.Reads id ts := by
  cases h with
  | printString text => exact ⟨_, .printString text⟩
  | printNumber h =>
    obtain ⟨e, he⟩ := h.exists_reads
    exact ⟨_, .printNumber he⟩
  | assign name h =>
    obtain ⟨e, he⟩ := h.exists_reads
    exact ⟨_, .assign name he⟩

/-- `IsSentence ts` gives a tree. -/
theorem IsSentence.exists_reads {ts : List Token} (h : IsSentence ts) :
    ∃ script : Script Symbol, script.Reads id ts := by
  induction h with
  | nil => exact ⟨[], .nil⟩
  | last hs =>
    obtain ⟨s, hs⟩ := hs.exists_reads
    exact ⟨[s], .last hs⟩
  | stop _ ih =>
    obtain ⟨script, hscript⟩ := ih
    exact ⟨script, .stop hscript⟩
  | cons hs _ ih =>
    obtain ⟨s, hs⟩ := hs.exists_reads
    obtain ⟨script, hscript⟩ := ih
    exact ⟨s :: script, .cons hs hscript⟩

/-- `e.Reads id k ts` gives `IsOperand k ts`. -/
theorem isOperand_of_reads {k : Nat} {ts : List Token} {e : Expr Symbol} (h : e.Reads id k ts) :
    IsOperand k ts := by
  induction h with
  | number value => exact .number value
  | name name => exact .name name
  | parens _ ih => exact .parens ih
  | negative value => exact .negate (.number value)
  | negate _ _ ih => exact .negate ih
  | operand _ ih => exact .operand ih
  | join symbol _ hlevel _ ihl ihr => exact .join symbol ihl hlevel ihr

/-! ### Where the grammar is left -/

/-- `OperandStuck k ts t`: an operand of level `k` was begun with the tokens `ts`, and the next
    token `t`, or the end, does not go on with it. -/
inductive OperandStuck : Nat → List Token → Option Token → Prop
  | start {t : Option Token} : t ≠ some (.op .minus) → (∀ value, t ≠ some (.number value)) →
    (∀ name, t ≠ some (.ident name)) → t ≠ some .lparen → OperandStuck 0 [] t
  | negate {ts : List Token} {t : Option Token} :
    OperandStuck 0 ts t → OperandStuck 0 (.op .minus :: ts) t
  | inside {ts : List Token} {t : Option Token} :
    OperandStuck 3 ts t → OperandStuck 0 (.lparen :: ts) t
  /-- Behind an expression in parentheses, any operator would go on with the expression. -/
  | close {ts : List Token} {t : Option Token} :
    IsOperand 3 ts → (∀ symbol, t ≠ some (.op symbol)) →
    t ≠ some .rparen → OperandStuck 0 (.lparen :: ts) t
  | first {k : Nat} {ts : List Token} {t : Option Token} :
    OperandStuck k ts t → OperandStuck (k + 1) ts t
  | join {k : Nat} {ts us : List Token} {t : Option Token} (symbol : Symbol) :
    IsOperand (k + 1) ts →
    symbol.level = k → OperandStuck k us t → OperandStuck (k + 1) (ts ++ .op symbol :: us) t

/-- `StatementStuck ts t`: a statement was begun with the tokens `ts`, and what comes next does not
    go on with it. -/
inductive StatementStuck : List Token → Option Token → Prop
  | start {t : Option Token} : t ≠ none → t ≠ some .stop → t ≠ some .print →
    (∀ name, t ≠ some (.ident name)) → StatementStuck [] t
  | print {ts : List Token} {t : Option Token} : (ts = [] → ∀ text, t ≠ some (.str text)) →
    OperandStuck 3 ts t → StatementStuck (.print :: ts) t
  | assign (name : String) {t : Option Token} : t ≠ some .assign → StatementStuck [.ident name] t
  | value (name : String) {ts : List Token} {t : Option Token} :
    OperandStuck 3 ts t → StatementStuck (.ident name :: .assign :: ts) t

/-- `ProgramStuck ts t`: a program was begun with the tokens `ts`, and what comes next does not go
    on with it. -/
inductive ProgramStuck : List Token → Option Token → Prop
  | statement {ts : List Token} {t : Option Token} : StatementStuck ts t → ProgramStuck ts t
  /-- Behind a statement, an operator can go on with its value. The print of a text has none. -/
  | behind {ts : List Token} {t : Option Token} : IsClause ts → t ≠ none → t ≠ some .stop →
    (∀ symbol, t = some (.op symbol) → ∃ text, ts = [.print, .str text]) → ProgramStuck ts t
  | stop {ts : List Token} {t : Option Token} : ProgramStuck ts t → ProgramStuck (.stop :: ts) t
  | cons {ts us : List Token} {t : Option Token} :
    IsClause ts → ProgramStuck us t → ProgramStuck (ts ++ .stop :: us) t

/-! ### What was read can be completed -/

/-- An operand that was begun can be ended, with a zero where one is missing and with parentheses
    closed. -/
theorem OperandStuck.exists_isOperand {k : Nat} {ts : List Token} {t : Option Token}
    (h : OperandStuck k ts t) : ∃ more, IsOperand k (ts ++ more) := by
  induction h with
  -- Wherever an operand is missing a number will do, and parentheses are closed behind it.
  | start => exact ⟨[.number Double.zero], .number _⟩
  | negate _ ih =>
    obtain ⟨more, hmore⟩ := ih
    exact ⟨more, .negate hmore⟩
  | @inside ts _ _ ih =>
    obtain ⟨more, hmore⟩ := ih
    refine ⟨more ++ [.rparen], ?_⟩
    have hparens := IsOperand.parens hmore
    simpa using hparens
  | close hts => exact ⟨[.rparen], .parens hts⟩
  | first _ ih =>
    obtain ⟨more, hmore⟩ := ih
    exact ⟨more, .operand hmore⟩
  | join symbol hts hlevel _ ih =>
    obtain ⟨more, hmore⟩ := ih
    refine ⟨more, ?_⟩
    rw [List.append_assoc]
    exact .join symbol hts hlevel hmore

/-- A statement that was begun can be ended. -/
theorem StatementStuck.exists_isStatement {ts : List Token} {t : Option Token}
    (h : StatementStuck ts t) : ∃ more, IsClause (ts ++ more) := by
  have hzero : IsOperand 3 [.number Double.zero] := .operand (.operand (.operand (.number _)))
  cases h with
  -- Where nothing is read yet any statement will do.
  | start => exact ⟨_, .printNumber hzero⟩
  | print _ hstuck =>
    obtain ⟨more, hmore⟩ := hstuck.exists_isOperand
    exact ⟨more, .printNumber hmore⟩
  | assign name => exact ⟨_, .assign name hzero⟩
  | value name hstuck =>
    obtain ⟨more, hmore⟩ := hstuck.exists_isOperand
    exact ⟨more, .assign name hmore⟩

/-- What a program was begun with `IsViable`. -/
theorem ProgramStuck.isViable {ts : List Token} {t : Option Token} (h : ProgramStuck ts t) :
    IsViable ts := by
  induction h with
  | statement hstuck =>
    obtain ⟨more, hmore⟩ := hstuck.exists_isStatement
    exact ⟨more, .last hmore⟩
  | behind hts => exact ⟨[], by rw [List.append_nil]; exact .last hts⟩
  | stop _ ih =>
    obtain ⟨more, hmore⟩ := ih
    exact ⟨more, .stop hmore⟩
  | cons hts _ ih =>
    obtain ⟨more, hmore⟩ := ih
    refine ⟨more, ?_⟩
    rw [List.append_assoc]
    exact .cons hts hmore

end Grammar

/-! ### Streams that go on in an impossible way are not read -/

namespace Parsed

/-- `q.Leaves steps rest` determines `rest`. -/
theorem Leaves.unique {p : TokenStream → Prop} {q : Parsed { rest : TokenStream // p rest }}
    {steps steps' : List Step} {rest rest' : TokenStream} (h : q.Leaves steps rest)
    (h' : q.Leaves steps' rest') : rest = rest' := by
  obtain ⟨hp, -, houtcome⟩ := h
  obtain ⟨hp', -, houtcome'⟩ := h'
  rw [houtcome, Except.ok.injEq] at houtcome'
  exact congrArg Subtype.val houtcome'

end Parsed

namespace TokenStream

open Grammar Parsed

/-- The token that a stream starts with. -/
def next? : TokenStream → Option Token
  | token t _ _ => some t
  | _ => none

/-- A stream with a next token starts with it. -/
theorem exists_of_next? {s : TokenStream} {t : Token} (h : s.next? = some t) :
    ∃ span rest, s = token t span rest := by
  cases s with
  | token t' span rest =>
    obtain rfl := Option.some.inj h
    exact ⟨span, rest, rfl⟩
  | ended | broken => cases h

/-- A stream that starts with no operator starts with none that is tighter. -/
theorem noTighter_of_next? {s : TokenStream} (h : ∀ symbol, s.next? ≠ some (.op symbol)) (k : Nat) :
    s.NoTighter k := by
  rintro j - symbol span rest rfl
  exact absurd rfl (h symbol)

/-- `operand k` reads tokens with `IsOperand k`, if no tighter operator follows. -/
theorem exists_leaves_operand {k : Nat} {ts : List Token} (h : IsOperand k ts)
    {s rest : TokenStream} (hc : s.Consumes ts rest) (hr : rest.IsReadable)
    (hk : rest.NoTighter k) :
    ∃ steps, (s.operand k).Leaves steps rest := by
  obtain ⟨e, he⟩ := h.exists_reads
  exact ⟨e.steps, (operand_complete he).operand hc hr hk⟩

/-- Where an operand of a level is read, behind another one that it starts with, operators of the
    level are read. -/
theorem exists_leaves_operators {n : Nat} {ts : List Token} (h : IsOperand n ts) {k : Nat}
    (hn : n = k + 1) {s rest last : TokenStream} (hc : s.Consumes ts rest) (hr : rest.IsReadable)
    (hk : rest.NoTighter k) {steps : List Step} (hl : (s.operand (k + 1)).Leaves steps last) :
    ∃ steps', (rest.operators k).Leaves steps' last := by
  induction h generalizing rest k steps with
  | number | name | parens | negate => cases hn
  | operand h =>
    obtain rfl := Nat.succ.inj hn
    obtain ⟨first, mid, last', ho, hm, -⟩ := leaves_operand_succ.mp hl
    obtain ⟨steps', ho'⟩ := exists_leaves_operand h hc hr hk
    rw [ho.unique ho'] at hm
    exact ⟨last', hm⟩
  | join symbol hts hlevel hus ihl _ =>
    obtain rfl := Nat.succ.inj hn
    subst hlevel
    obtain ⟨mid, hmid, hrest⟩ := hc.split
    obtain ⟨span, next, rfl, hnext⟩ := hrest.head
    -- Behind the left operand comes the operator, and its right operand is the one at hand.
    obtain ⟨steps', hsteps'⟩ :=
      ihl rfl hmid (isReadable_token _ _ _) (noTighter_symbol symbol span next) hl
    obtain ⟨-, first, mid', last', ho, hm, -⟩ := leaves_operators_symbol.mp hsteps'
    obtain ⟨steps'', ho'⟩ := exists_leaves_operand hus hnext hr hk
    rw [ho.unique ho'] at hm
    exact ⟨last', hm⟩

/-- `operand k` does not read a stream that is stuck: its tokens `ts` have `OperandStuck k ts` with
    the next one. -/
theorem not_leaves_operand {k : Nat} {ts : List Token} {t : Option Token} (h : OperandStuck k ts t)
    {s rest : TokenStream} (hc : s.Consumes ts rest) (hr : rest.IsReadable) (ht : rest.next? = t)
    {steps : List Step} {last : TokenStream} : ¬ (s.operand k).Leaves steps last := by
  intro hl
  induction h generalizing s steps last with
  | start hminus hnumber hname hparen =>
    cases hc
    cases leaves_unary_iff.mp (leaves_operand_zero.mp hl) with
    | negative | negate => exact hminus ht.symm
    | number value => exact hnumber value ht.symm
    | name name => exact hname name ht.symm
    | parens => exact hparen ht.symm
  | negate _ ih =>
    obtain ⟨span, s', rfl, hs'⟩ := hc.head
    cases leaves_unary_iff.mp (leaves_operand_zero.mp hl) with
    | negative value _ span' hrest =>
      exact ih hs' ht (leaves_operand_zero.mpr (leaves_unary_iff.mpr (.number value span' hrest)))
    | negate _ _ _ hu => exact ih hs' ht (leaves_operand_zero.mpr hu)
  | inside _ ih =>
    obtain ⟨span, s', rfl, hs'⟩ := hc.head
    cases leaves_unary_iff.mp (leaves_operand_zero.mp hl) with
    | parens _ _ _ ho => exact ih hs' ht ho
  | close hts hop hrparen =>
    -- No operator follows, so the expression inside is read to its end.
    obtain ⟨span, s', rfl, hs'⟩ := hc.head
    cases leaves_unary_iff.mp (leaves_operand_zero.mp hl) with
    | parens _ span' _ ho =>
      obtain ⟨steps', ho'⟩ := exists_leaves_operand hts hs' hr (noTighter_of_next? (ht ▸ hop) 3)
      rw [← ho.unique ho'] at ht
      exact hrparen ht.symm
  | first _ ih =>
    obtain ⟨_, _, _, ho, -⟩ := leaves_operand_succ.mp hl
    exact ih hc ht ho
  | join symbol hts hlevel _ ih =>
    -- Whatever is read comes to the operator, and then the stuck operand is read.
    subst hlevel
    obtain ⟨mid, hmid, hrest⟩ := hc.split
    obtain ⟨span, next, rfl, hnext⟩ := hrest.head
    obtain ⟨steps', hsteps'⟩ := exists_leaves_operators hts rfl hmid (isReadable_token _ _ _)
      (noTighter_symbol symbol span next) hl
    obtain ⟨-, _, _, _, ho, -⟩ := leaves_operators_symbol.mp hsteps'
    exact ih hnext ht ho

/-- `statement` does not read a stream with `StatementStuck`. -/
theorem not_leaves_statement {ts : List Token} {t : Option Token} (h : StatementStuck ts t)
    {s rest : TokenStream} (hc : s.Consumes ts rest) (hr : rest.IsReadable) (ht : rest.next? = t)
    {steps : List Step} {last : TokenStream} : ¬ s.statement.Leaves steps last := by
  intro hl
  have hread := leaves_statement_iff.mp hl
  cases h with
  | start _ _ hprint hname =>
    cases hc
    cases hread with
    | printString | printNumber => exact hprint ht.symm
    | assign name => exact hname name ht.symm
  | @print ts _ hstr hstuck =>
    obtain ⟨span, s', rfl, hs'⟩ := hc.head
    cases hread with
    | printString text _ span' =>
      -- A text is read only right behind `print`, where none is expected.
      cases hs' with
      | nil => exact hstr rfl text ht.symm
      | cons =>
        obtain ⟨more, hmore⟩ := hstuck.exists_isOperand
        obtain ⟨t, us, heq, hne⟩ := hmore.exists_cons
        exact hne text (List.cons.inj heq).1.symm
    | printNumber _ _ _ ho => exact not_leaves_operand hstuck hs' hr ht ho
  | assign name hassign =>
    obtain ⟨span, s', rfl, hs'⟩ := hc.head
    cases hs'
    cases hread with
    | assign => exact hassign ht.symm
  | value name hstuck =>
    obtain ⟨span, s', rfl, hs'⟩ := hc.head
    obtain ⟨span', s'', rfl, hs''⟩ := hs'.head
    cases hread with
    | assign _ _ _ _ ho => exact not_leaves_operand hstuck hs'' hr ht ho

/-- A statement is read before an end of statement, and the print of a text before anything. -/
theorem exists_leaves_statement {ts : List Token} (h : IsClause ts) {s rest : TokenStream}
    (hc : s.Consumes ts rest) (hr : rest.IsReadable)
    (hop : ∀ symbol, rest.next? = some (.op symbol) → ∃ text, ts = [.print, .str text]) :
    ∃ steps, s.statement.Leaves steps rest := by
  by_cases htext : ∃ text, ts = [.print, .str text]
  · obtain ⟨text, rfl⟩ := htext
    obtain ⟨span, s', rfl, hs'⟩ := hc.head
    obtain ⟨span', s'', rfl, hs''⟩ := hs'.head
    cases hs''
    exact ⟨_, leaves_statement_iff.mpr (.printString text span span' hr)⟩
  · obtain ⟨st, hst⟩ := h.exists_reads
    have hnext : ∀ symbol, rest.next? ≠ some (.op symbol) := fun symbol hs => htext (hop symbol hs)
    exact ⟨_, statement_complete hst hc hr (noTighter_of_next? hnext 3)⟩

/-- `program` does not read a stream with `ProgramStuck`. -/
theorem not_yields_program {ts : List Token} {t : Option Token} (h : ProgramStuck ts t)
    {s rest : TokenStream} (hc : s.Consumes ts rest) (hr : rest.IsReadable) (ht : rest.next? = t)
    {steps : List Step} : ¬ s.program.Yields steps () := by
  intro hy
  induction h generalizing s steps with
  | statement hstuck =>
    cases yields_program_iff.mp hy with
    | nil =>
      cases hc
      cases hstuck with
      | start hnone => exact hnone ht.symm
    | stop =>
      cases hc with
      | nil =>
        cases hstuck with
        | start _ hstop => exact hstop ht.symm
      | cons => cases hstuck
    | last _ hs => exact not_leaves_statement hstuck hc hr ht hs
    | cons _ hs => exact not_leaves_statement hstuck hc hr ht hs
  | behind hts hnone hstop hop =>
    -- The statement is read in one way, and what it leaves neither ends the stream nor the
    -- statement.
    obtain ⟨steps', hs'⟩ := exists_leaves_statement hts hc hr (by rwa [ht])
    cases yields_program_iff.mp hy with
    | nil => cases leaves_statement_iff.mp hs'
    | stop => cases leaves_statement_iff.mp hs'
    | last offset hs =>
      rw [hs'.unique hs] at ht
      exact hnone ht.symm
    | cons span hs =>
      rw [hs'.unique hs] at ht
      exact hstop ht.symm
  | stop _ ih =>
    obtain ⟨span, s', rfl, hs'⟩ := hc.head
    cases yields_program_iff.mp hy with
    | stop _ _ hp => exact ih hs' ht hp
    | last _ hs => cases leaves_statement_iff.mp hs
    | cons _ hs => cases leaves_statement_iff.mp hs
  | cons hts _ ih =>
    obtain ⟨mid, hmid, hrest⟩ := hc.split
    obtain ⟨span, next, rfl, hnext⟩ := hrest.head
    obtain ⟨steps', hs'⟩ :=
      exists_leaves_statement hts hmid (isReadable_token _ _ _) (by simp [next?])
    cases yields_program_iff.mp hy with
    | nil => cases leaves_statement_iff.mp hs'
    | stop => cases leaves_statement_iff.mp hs'
    | last offset hs => cases hs'.unique hs
    | cons span' hs _ hp =>
      cases hs'.unique hs
      exact ih hnext ht hp

end TokenStream

/-! ### Where reading fails -/

namespace Parsed

variable {α β : Type} {q : Parsed α} {next : α → Parsed β} {e : SyntaxError}

/-- `q.Fails e`: reading ended with the error `e`. -/
def Fails (q : Parsed α) (e : SyntaxError) : Prop := q.outcome = .error e

/-- `pure` does not fail. -/
theorem not_fails_pure {a : α} : ¬ (pure a : Parsed α).Fails e := by
  intro h
  cases h

/-- `fail e'` fails with `e'`. -/
theorem fails_fail {e' : SyntaxError} (h : (fail e' : Parsed α).Fails e) : e = e' :=
  (Except.error.inj h).symm

/-- Two readings in a row fail if the first does, or if it succeeds and the second fails. -/
theorem fails_bind (h : (q >>= next).Fails e) :
    q.Fails e ∨ ∃ a, q.outcome = .ok a ∧ (next a).Fails e := by
  rw [bind_eq_andThen] at h
  cases hq : q.outcome with
  | error e' =>
    rw [andThen_of_error next hq] at h
    obtain rfl : e' = e := Except.error.inj h
    exact .inl hq
  | ok a =>
    rw [andThen_of_ok next hq] at h
    exact .inr ⟨a, rfl, h⟩

/-- `found` does not fail. -/
theorem fails_found_bind {step : Step} {span : Span} {next : Unit → Parsed β}
    (h : (found step span >>= next).Fails e) : (next ()).Fails e := h

/-- If the second reading cannot fail, the first did. -/
theorem fails_of_bind (h : (q >>= next).Fails e) (hnext : ∀ a, ¬ (next a).Fails e) : q.Fails e := by
  rcases fails_bind h with hq | ⟨a, -, ha⟩
  · exact hq
  · exact absurd ha (hnext a)

/-- After a part of a stream, only what it left matters. -/
theorem fails_bind_of {p : TokenStream → Prop} {q : Parsed { rest : TokenStream // p rest }}
    {next : { rest : TokenStream // p rest } → Parsed β} (h : (q >>= next).Fails e) :
    q.Fails e ∨ ∃ steps a, q.Leaves steps a.1 ∧ (next a).Fails e := by
  rcases fails_bind h with hq | ⟨a, ha, hnext⟩
  · exact .inl hq
  · exact .inr ⟨_, a, ⟨a.2, rfl, ha⟩, hnext⟩

end Parsed

namespace TokenStream

open Grammar Parsed

/-- `s.FailsAt e P`: the stream breaks off with the error `e`, or `e` is about what comes behind
    tokens, and `P` holds of these tokens and what comes. -/
def FailsAt (s : TokenStream) (e : SyntaxError) (P : List Token → Option Token → Prop) : Prop :=
  ∃ ts rest, s.Consumes ts rest ∧
    (rest = broken e ∨ rest.IsReadable ∧ P ts rest.next? ∧ ∃ expected, e = rest.errorHere expected)

/-- An error behind other tokens. -/
theorem FailsAt.behind {s mid : TokenStream} {e : SyntaxError}
    {P P' : List Token → Option Token → Prop} {us : List Token} (h : mid.FailsAt e P)
    (hc : s.Consumes us mid)
    (hP : ∀ {ts : List Token} {t : Option Token}, P ts t → P' (us ++ ts) t) : s.FailsAt e P' := by
  obtain ⟨ts, rest, hts, hrest⟩ := h
  refine ⟨us ++ ts, rest, hc.append hts, ?_⟩
  rcases hrest with hbroken | ⟨hr, hts, he⟩
  · exact .inl hbroken
  · exact .inr ⟨hr, hP hts, he⟩

/-- An error about what a stream starts with. -/
theorem failsAt_here {s : TokenStream} {P : List Token → Option Token → Prop}
    {expected : Expectation} (hs : s.IsReadable) (hP : P [] s.next?) :
    s.FailsAt (s.errorHere expected) P :=
  ⟨[], s, .nil s, .inr ⟨hs, hP, expected, rfl⟩⟩

/-- `enter` and what follows fail where the stream breaks off, or behind that. -/
theorem fails_enter_bind {β : Type} {s mid : TokenStream} {us : List Token} {e : SyntaxError}
    {next : Unit → Parsed β} {P : List Token → Option Token → Prop}
    (h : (mid.enter >>= next).Fails e) (hc : s.Consumes us mid) :
    s.FailsAt e P ∨ mid.IsReadable ∧ (next ()).Fails e := by
  cases mid with
  | token t span rest => exact .inr ⟨isReadable_token t span rest, h⟩
  | ended offset =>
    have hended : (ended offset).IsReadable := fun e h => by cases h
    exact .inr ⟨hended, h⟩
  | broken e' =>
    obtain rfl : e' = e := Except.error.inj h
    exact .inl ⟨us, _, hc, .inl rfl⟩

/-- If nothing can fail behind `enter`, the stream breaks off there. -/
theorem fails_enter {β : Type} {s mid : TokenStream} {us : List Token} {e : SyntaxError}
    {next : Unit → Parsed β} {P : List Token → Option Token → Prop}
    (h : (mid.enter >>= next).Fails e) (hc : s.Consumes us mid) (hnext : ¬ (next ()).Fails e) :
    s.FailsAt e P := by
  rcases fails_enter_bind h hc with hat | ⟨-, hfails⟩
  · exact hat
  · exact absurd hfails hnext

/-- `expect t` fails because `t` is missing, or because the stream breaks off behind it. -/
theorem fails_expect {s mid : TokenStream} {us : List Token} {t : Token} {expected : Expectation}
    {e : SyntaxError} {P : List Token → Option Token → Prop} (h : (mid.expect t expected).Fails e)
    (hmid : mid.IsReadable) (hc : s.Consumes us mid) (hP : mid.next? ≠ some t → P us mid.next?) :
    s.FailsAt e P := by
  have hhere : e = mid.errorHere expected → mid.next? ≠ some t → s.FailsAt e P :=
    fun he hne => ⟨us, mid, hc, .inr ⟨hmid, hP hne, expected, he⟩⟩
  cases mid with
  | token t' span rest =>
    rw [expect] at h
    split at h
    · next heq =>
      subst heq
      -- The expected token is there, so it is the next lexeme that cannot be read.
      exact fails_enter h (hc.append (.cons t' span (.nil rest))) not_fails_pure
    · next hne => exact hhere (fails_fail h) (by simpa [next?] using hne)
  | ended offset => exact hhere (fails_fail h) (by simp [next?])
  | broken e' => exact absurd rfl (hmid e')

/-! ### Operands -/

/-- What `operators k` left starts with no operator of the level or a tighter one. -/
theorem noTighter_of_leaves_operators {k : Nat}
    (ih : ∀ {s : TokenStream} {steps rest}, (s.operand k).Leaves steps rest → rest.NoTighter k)
    {s rest : TokenStream} {steps : List Step} (h : (s.operators k).Leaves steps rest)
    (hs : s.NoTighter k) : rest.NoTighter (k + 1) := by
  rcases s.noOperator_or k with hop | ⟨symbol, span, next, rfl, rfl⟩
  · -- The loop stops where no operator of level `k` follows; tighter ones were ruled out before.
    obtain ⟨-, rfl⟩ := (leaves_operators_stop hop).mp h
    intro j hj
    by_cases hjk : j = k
    · exact hjk ▸ hop
    · exact hs j (by omega)
  · obtain ⟨-, first, mid, last, ho, hl, -⟩ := leaves_operators_symbol.mp h
    have hlt : mid.size < next.size := size_lt_of_leaves ho
    exact noTighter_of_leaves_operators ih hl (ih ho)
termination_by s.size
decreasing_by
  subst_vars
  rw [size_token]
  omega

/-- What `operand k` left starts with no operator of a level below `k`. -/
theorem noTighter_of_leaves {k : Nat} {s rest : TokenStream} {steps : List Step}
    (h : (s.operand k).Leaves steps rest) : rest.NoTighter k := by
  induction k generalizing s steps rest with
  | zero => exact fun j hj => absurd hj (Nat.not_lt_zero j)
  | succ k ih =>
    obtain ⟨_, mid, _, ho, hl, -⟩ := leaves_operand_succ.mp h
    exact noTighter_of_leaves_operators ih hl (ih ho)

/-- Behind an expression there is no operator. -/
theorem next?_ne_op {s rest : TokenStream} {steps : List Step} (h : (s.operand 3).Leaves steps rest)
    (symbol : Symbol) : rest.next? ≠ some (.op symbol) := by
  cases rest with
  | token t span next =>
    intro ht
    obtain rfl := Option.some.inj ht
    have hlevel : symbol.level < 3 := by cases symbol <;> decide
    exact noTighter_of_leaves h symbol.level hlevel symbol span next rfl rfl
  | ended | broken => simp [next?]

/-- Where `unary` fails, the stream has `OperandStuck 0`, if `operand` is so on shorter streams. -/
theorem unary_fails {s : TokenStream} (hs : s.IsReadable)
    (ih : ∀ s' : TokenStream, s'.size < s.size → s'.IsReadable → ∀ {k e}, (s'.operand k).Fails e →
      s'.FailsAt e (OperandStuck k)) {e : SyntaxError} (h : s.unary.Fails e) :
    s.FailsAt e (OperandStuck 0) := by
  rw [unary.eq_def] at h
  split at h
  · next span value span' rest =>
    exact fails_enter h (.cons _ span (.cons _ span' (.nil rest))) not_fails_pure
  · next span rest _ =>
    have hc : (token (.op .minus) span rest).Consumes [.op .minus] rest := .cons _ span (.nil rest)
    rcases fails_enter_bind h hc with hat | ⟨hr, h⟩
    · exact hat
    · have hunary := fails_of_bind h fun _ => not_fails_pure
      have hat := ih rest (by simp) hr (k := 0) (by rwa [operand])
      exact hat.behind hc .negate
  · next value span rest =>
    exact fails_enter h (.cons _ span (.nil rest)) not_fails_pure
  · next name span rest =>
    exact fails_enter h (.cons _ span (.nil rest)) not_fails_pure
  · next span rest =>
    have hc : (token .lparen span rest).Consumes [.lparen] rest := .cons _ span (.nil rest)
    rcases fails_enter_bind h hc with hat | ⟨hr, h⟩
    · exact hat
    · rcases fails_bind_of h with h | ⟨steps, inner, hinner, h⟩
      · exact (ih rest (by simp) hr h).behind hc .inside
      · -- The expression was read, and what comes behind it is no closing parenthesis.
        have hexpect := fails_of_bind h fun _ => not_fails_pure
        obtain ⟨ts, x, hts, hinner', hx, -⟩ := operand_sound hinner
        exact fails_expect hexpect hinner' (hc.append hts) fun hne =>
          .close (isOperand_of_reads hx) (next?_ne_op hinner) hne
  · next hnegative hminus hnumber hname hparen =>
    obtain rfl := fails_fail h
    refine failsAt_here hs (.start (fun ht => ?_) (fun value ht => ?_)
      (fun name ht => ?_) fun ht => ?_)
    all_goals obtain ⟨span, rest, rfl⟩ := exists_of_next? ht
    · exact hminus span rest rfl
    · exact hnumber value span rest rfl
    · exact hname name span rest rfl
    · exact hparen span rest rfl

/-- Where `operators k` fails behind an operand, the stream has `OperandStuck (k + 1)`. -/
theorem operators_fails {k : Nat} {s : TokenStream}
    (ih : ∀ s' : TokenStream, s'.size < s.size → s'.IsReadable → ∀ {k e}, (s'.operand k).Fails e →
      s'.FailsAt e (OperandStuck k)) {e : SyntaxError} (h : (s.operators k).Fails e)
    {start : TokenStream} {ts : List Token} (hc : start.Consumes ts s)
      (hts : IsOperand (k + 1) ts) :
    start.FailsAt e (OperandStuck (k + 1)) := by
  rcases s.noOperator_or k with hop | ⟨symbol, span, next, rfl, rfl⟩
  · -- Without an operator nothing is read, and nothing fails.
    rw [operators.eq_def] at h
    split at h
    · next symbol span rest =>
      rw [if_neg (hop symbol span rest rfl)] at h
      exact absurd h not_fails_pure
    · exact absurd h not_fails_pure
  · have hop : (token (.op symbol) span next).Consumes [.op symbol] next := .cons _ span (.nil next)
    rw [operators, if_pos rfl] at h
    rcases fails_enter_bind h (hc.append hop) with hat | ⟨hr, h⟩
    · exact hat
    · rcases fails_bind_of h with h | ⟨_, mid, ho, h⟩
      · have hat := ih next (by simp) hr h
        refine hat.behind (hc.append hop) fun hstuck => ?_
        rw [List.append_assoc]
        exact .join symbol hts rfl hstuck
      · -- With the right operand, what was read so far is the left operand of what follows.
        have hmore := fails_of_bind (fails_found_bind h) fun _ => not_fails_pure
        obtain ⟨us, x, hus, -, hx, -⟩ := operand_sound ho
        have hlt := mid.2
        exact operators_fails (fun s' hs' => ih s' (by rw [size_token]; omega)) hmore
          (hc.append (.cons _ span hus)) (.join symbol hts rfl (isOperand_of_reads hx))
termination_by s.size
decreasing_by
  subst_vars
  have := mid.2
  rw [size_token]
  omega

/-- Where `operand k` fails, the stream has `OperandStuck k`. -/
theorem operand_fails {k : Nat} {s : TokenStream} (hs : s.IsReadable) {e : SyntaxError}
    (h : (s.operand k).Fails e) : s.FailsAt e (OperandStuck k) := by
  -- Inside of a stream of one size, the induction is on the level.
  induction hn : s.size using Nat.strongRecOn generalizing s k e with
  | ind n ih =>
    have ih' : ∀ s' : TokenStream, s'.size < s.size → s'.IsReadable → ∀ {k e},
        (s'.operand k).Fails e → s'.FailsAt e (OperandStuck k) :=
      fun s' hlt hs' {k e} h' => ih s'.size (hn ▸ hlt) hs' h' rfl
    induction k generalizing e with
    | zero =>
      rw [operand] at h
      exact unary_fails hs ih' h
    | succ k ihk =>
      rw [operand] at h
      rcases fails_bind_of h with h | ⟨_, mid, ho, h⟩
      · exact (ihk h).behind (.nil s) .first
      · have hmore := fails_of_bind h fun _ => not_fails_pure
        obtain ⟨ts, x, hts, -, hx, -⟩ := operand_sound ho
        have hlt := mid.2
        exact operators_fails (fun s' hs' => ih' s' (by omega)) hmore hts
          (.operand (isOperand_of_reads hx))

/-! ### Statements and programs -/

/-- Where `statement` fails, the stream has `StatementStuck`. -/
theorem statement_fails {s : TokenStream} (hs : s.IsReadable) (hended : ∀ offset, s ≠ ended offset)
    (hstop : ∀ span rest, s ≠ token .stop span rest) {e : SyntaxError} (h : s.statement.Fails e) :
    s.FailsAt e StatementStuck := by
  rw [statement.eq_def] at h
  split at h
  · next span text span' rest =>
    exact fails_enter h (.cons _ span (.cons _ span' (.nil rest))) not_fails_pure
  · next span rest hstr =>
    have hc : (token .print span rest).Consumes [.print] rest := .cons _ span (.nil rest)
    rcases fails_enter_bind h hc with hat | ⟨hr, h⟩
    · exact hat
    · have hoperand := fails_of_bind h fun _ => not_fails_pure
      obtain ⟨ts, rest', hts, hrest'⟩ := operand_fails hr hoperand
      refine ⟨.print :: ts, rest', hc.append hts, ?_⟩
      rcases hrest' with hbroken | ⟨hr', hstuck, he⟩
      · exact .inl hbroken
      · refine .inr ⟨hr', .print ?_ hstuck, he⟩
        -- Right behind `print` there is no text.
        rintro rfl text ht
        cases hts
        obtain ⟨span', next, rfl⟩ := exists_of_next? ht
        exact hstr text span' next rfl
  · next name span rest =>
    have hc : (token (.ident name) span rest).Consumes [.ident name] rest :=
      .cons _ span (.nil rest)
    rcases fails_enter_bind h hc with hat | ⟨hr, h⟩
    · exact hat
    · rcases fails_bind_of h with h | ⟨_, ⟨value, _⟩, hvalue, h⟩
      · exact fails_expect h hr hc (.assign name)
      · have hassign : _ ∧ value.IsReadable ∧ ∃ span', rest = token .assign span' value :=
          leaves_expect.mp hvalue
        obtain ⟨-, hreadable, span', rfl⟩ := hassign
        have hoperand := fails_of_bind h fun _ => not_fails_pure
        exact (operand_fails hreadable hoperand).behind
          (hc.append (.cons _ span' (.nil _))) (.value name)
  · next hprintString hprint hname =>
    obtain rfl := fails_fail h
    refine failsAt_here hs (.start ?_ (fun ht => ?_) (fun ht => ?_) fun name ht => ?_)
    · cases s with
      | token => simp [next?]
      | ended offset => exact absurd rfl (hended offset)
      | broken e => exact absurd rfl (hs e)
    all_goals obtain ⟨span, rest, rfl⟩ := exists_of_next? ht
    · exact hstop span rest rfl
    · exact hprint span rest rfl
    · exact hname name span rest rfl

/-- Behind a statement that was read, an operator follows only on the print of a text. -/
theorem next?_of_statement {s rest : TokenStream} {steps : List Step}
    (h : s.statement.Leaves steps rest) :
    ∃ ts, s.Consumes ts rest ∧ IsClause ts ∧ rest.IsReadable ∧
      ∀ symbol, rest.next? = some (.op symbol) → ∃ text, ts = [.print, .str text] := by
  cases leaves_statement_iff.mp h with
  | printString text span span' hr =>
    exact ⟨_, .cons _ span (.cons _ span' (.nil _)), .printString text, hr, fun _ _ => ⟨text, rfl⟩⟩
  -- An operand takes every operator behind it; a printed text takes none.
  | printNumber span _ _ ho =>
    obtain ⟨ts, x, hts, hr, hx, -⟩ := operand_sound ho
    exact ⟨_, .cons _ span hts, .printNumber (isOperand_of_reads hx), hr,
      fun symbol ht => absurd ht (next?_ne_op ho symbol)⟩
  | assign name span span' _ ho =>
    obtain ⟨ts, x, hts, hr, hx, -⟩ := operand_sound ho
    exact ⟨_, .cons _ span (.cons _ span' hts), .assign name (isOperand_of_reads hx), hr,
      fun symbol ht => absurd ht (next?_ne_op ho symbol)⟩

/-- Where `program` fails, the stream has `ProgramStuck`. -/
theorem program_fails {s : TokenStream} (hs : s.IsReadable) {e : SyntaxError}
    (h : s.program.Fails e) :
    s.FailsAt e ProgramStuck := by
  have hprogram := h
  rw [program.eq_def] at hprogram
  split at hprogram
  · exact absurd hprogram not_fails_pure
  · next span rest =>
    have hc : (token .stop span rest).Consumes [.stop] rest := .cons _ span (.nil rest)
    rcases fails_enter_bind hprogram hc with hat | ⟨hr, hrest⟩
    · exact hat
    · exact (program_fails hr hrest).behind hc .stop
  · next hended hstop =>
    rw [program_eq_statement hended hstop] at h
    rcases fails_bind_of h with h | ⟨_, ⟨mid, hlt⟩, hmid, h⟩
    · exact (statement_fails hs hended hstop h).behind (.nil s) .statement
    · obtain ⟨ts, hts, hstatement, hr, hop⟩ := next?_of_statement hmid
      replace h : mid.afterStatement.Fails e := h
      unfold afterStatement at h
      split at h
      · exact absurd h not_fails_pure
      · next span rest =>
        have hc := hts.append (.cons .stop span (.nil rest))
        rcases fails_enter_bind h hc with hat | ⟨hr', h⟩
        · exact hat
        · refine (program_fails hr' h).behind hc fun hstuck => ?_
          rw [List.append_assoc]
          exact .cons hstatement hstuck
      · -- Behind the statement there is neither an end of statement nor the end.
        next hended' hstop' =>
        obtain rfl := fails_fail h
        refine ⟨ts, mid, hts, .inr ⟨hr, .behind hstatement ?_ (fun ht => ?_) hop, _, rfl⟩⟩
        · cases mid with
          | token => simp [next?]
          | ended offset => exact absurd rfl (hended' offset)
          | broken e => exact absurd rfl (hr e)
        · obtain ⟨span, rest, rfl⟩ := exists_of_next? ht
          exact hstop' span rest rfl
termination_by s.size
decreasing_by
  · subst_vars
    simp
  · subst_vars
    rw [size_token] at hlt
    omega

/-! ### Impossible tokens -/

/-- There is a stream with any tokens in front of any rest. -/
theorem exists_consumes (ts : List Token) (rest : TokenStream) :
    ∃ s : TokenStream, s.Consumes ts rest := by
  induction ts with
  | nil => exact ⟨rest, .nil rest⟩
  | cons t ts ih =>
    obtain ⟨s, hs⟩ := ih
    exact ⟨token t ⟨0, 0⟩ s, .cons t _ hs⟩

end TokenStream

namespace Grammar

open TokenStream

/-- No sentence goes on with a token that is stuck: its stream would be read. -/
theorem ProgramStuck.not_isViable {ts : List Token} {t : Token} (h : ProgramStuck ts (some t)) :
    ¬ IsViable (ts ++ [t]) := by
  rintro ⟨more, hsentence⟩
  obtain ⟨script, hscript⟩ := hsentence.exists_reads
  obtain ⟨rest, hrest⟩ := exists_consumes more (ended 0)
  obtain ⟨s, hs⟩ := exists_consumes ts (token t ⟨0, 0⟩ rest)
  have hc : s.Consumes (ts ++ [t] ++ more) (ended 0) := by
    rw [List.append_assoc]
    exact hs.append (.cons t _ hrest)
  exact not_yields_program h hs (isReadable_token _ _ _) rfl (program_complete hscript hc)

/-- Tokens that are stuck at the end are no sentence. -/
theorem ProgramStuck.not_isSentence {ts : List Token} (h : ProgramStuck ts none) :
    ¬ IsSentence ts := by
  intro hsentence
  obtain ⟨script, hscript⟩ := hsentence.exists_reads
  obtain ⟨s, hs⟩ := exists_consumes ts (ended 0)
  have hended : (ended 0).IsReadable := fun e h => by cases h
  exact not_yields_program h hs hended rfl (program_complete hscript hs)

end Grammar

/-! ### Sources -/

/-- What is left of the stream of a source is the stream of the lexemes that are left. -/
theorem TokenStream.Consumes.exists_lexemes {length : Nat} {ls : List Lexeme} {ts : List Token}
    {rest : TokenStream} (h : (ofLexemes length ls).Consumes ts rest) :
    ∃ before after, ls = before ++ after ∧ before.map (·.outcome) = ts.map .ok ∧
      rest = ofLexemes length after := by
  induction ts generalizing ls with
  | nil =>
    generalize hs : ofLexemes length ls = s at h
    cases h
    exact ⟨[], ls, rfl, rfl, hs.symm⟩
  | cons t ts ih =>
    obtain ⟨span, next, heq, hnext⟩ := h.head
    cases ls with
    | nil => cases heq
    | cons l ls =>
      rw [ofLexemes] at heq
      cases hl : l.outcome with
      -- A stream that is broken here consumes nothing.
      | error fault =>
        rw [hl] at heq
        cases heq
      | ok t' =>
        rw [hl] at heq
        obtain ⟨rfl, -, rfl⟩ := token.inj heq
        obtain ⟨before, after, rfl, hbefore, hrest⟩ := ih hnext
        exact ⟨l :: before, after, rfl, by rw [List.map_cons, hl, hbefore, List.map_cons], hrest⟩

/-- A place in a source belongs to one lexeme. -/
theorem span_ne_of_lexemes {source : String} {before after : List Lexeme} {l l' : Lexeme}
    (h : lexemes source = before ++ l :: after) (hl' : l' ∈ before ++ after) :
    l'.span ≠ l.span := by
  have htiles : Tiles 0 source.toList (before ++ l :: after) :=
    h ▸ tiles_lexemesFrom 0 source.toList
  have hpos : 0 < l.span.length := byteLength_pos (htiles.exists_append (by simp)).1
  have hpairwise := htiles.pairwise
  rw [List.pairwise_append, List.pairwise_cons] at hpairwise
  obtain ⟨-, ⟨hafter, -⟩, hbefore⟩ := hpairwise
  intro hspan
  -- Of two lexemes with one place, each would end before the other one starts.
  have hstop : l.span.stop ≤ l.span.start := by
    rcases List.mem_append.mp hl' with hl' | hl'
    · exact hspan ▸ hbefore l' hl' l (by simp)
    · exact hspan ▸ hafter l' hl'
  unfold Span.stop at hstop
  omega

/-- Where `compile` fails with `malformed e`, `parse` fails with `e`. -/
theorem parse_fails_of_compile {source : String} {options : Options} {e : SyntaxError}
    (h : compile source options = .error (.malformed e)) : (parse source).Fails e := by
  rcases hlist : Step.emitList ((parse source).steps.map (·.step)) [] { options } with
    ⟨e' | stack, c⟩
  · -- An error of a step comes first and is another one.
    obtain ⟨span, hinto⟩ := compileInto_of_error hlist
    rw [compile_of_error hinto] at h
    cases h
  · have hinto := compileInto_of_ok hlist
    cases houtcome : (parse source).outcome with
    | error e' =>
      rw [houtcome] at hinto
      rw [compile_of_error hinto] at h
      cases h
      exact houtcome
    | ok u =>
      rw [houtcome] at hinto
      rcases hfinish : Emit.finish c with ⟨e' | u', c'⟩
      · rw [compile_of_finish_error hinto hfinish] at h
        cases h
      · rw [compile_of_finish hinto hfinish] at h
        cases h

/-- A stream of lexemes breaks off with a stretch of text that is no token. -/
theorem TokenStream.exists_of_ofLexemes_eq_broken {length : Nat} {ls : List Lexeme}
    {e : SyntaxError} (h : ofLexemes length ls = broken e) :
    ∃ fault text span, e = .badLexeme fault text span := by
  cases ls with
  | nil => cases h
  | cons l ls =>
    rw [ofLexemes] at h
    split at h
    · cases h
    · exact ⟨_, _, _, (broken.inj h).symm⟩

/-- Where `parse` fails, the stream of the source has `ProgramStuck`. -/
theorem parse_fails {source : String} {e : SyntaxError} (h : (parse source).Fails e) :
    (TokenStream.ofSource source).FailsAt e Grammar.ProgramStuck := by
  rw [parse] at h
  cases hs : TokenStream.ofSource source with
  | token t span rest =>
    exact TokenStream.program_fails (TokenStream.isReadable_token t span rest) (hs ▸ h)
  | ended offset => exact TokenStream.program_fails (fun e h => by cases h) (hs ▸ h)
  | broken e' =>
    -- The first statement is looked for where the stream breaks off.
    rw [hs, TokenStream.program_eq_statement (by simp) (by simp)] at h
    rcases Parsed.fails_bind_of h with h | ⟨_, _, hleaves, -⟩
    · obtain rfl : e = e' := Parsed.fails_fail h
      exact ⟨[], _, .nil _, .inl rfl⟩
    · cases TokenStream.leaves_statement_iff.mp hleaves

/-- An error of `compile` that is not about a stretch of text stands behind tokens with
    `ProgramStuck`. -/
theorem stuck_of_compile {source : String} {options : Options} {e : SyntaxError}
    (h : compile source options = .error (.malformed e))
    (he : ∀ fault text span, e ≠ .badLexeme fault text span) :
    ∃ before after tokens, lexemes source = before ++ after ∧
      before.map (·.outcome) = tokens.map .ok ∧
      ∃ rest, TokenStream.ofLexemes source.utf8ByteSize after = rest ∧ rest.IsReadable ∧
        Grammar.ProgramStuck tokens rest.next? ∧ ∃ expected, e = rest.errorHere expected := by
  obtain ⟨tokens, rest, hc, hrest⟩ := parse_fails (parse_fails_of_compile h)
  obtain ⟨before, after, hlexemes, hbefore, rfl⟩ := hc.exists_lexemes
  refine ⟨before, after, tokens, hlexemes, hbefore, _, rfl, ?_⟩
  rcases hrest with hbroken | hstuck
  · obtain ⟨fault, text, span, rfl⟩ := TokenStream.exists_of_ofLexemes_eq_broken hbroken
    exact absurd rfl (he fault text span)
  · exact hstuck

/-- Whether an error is the one that is meant can be decided, whatever the result without an error
    is. -/
instance decidableEqError {ε α : Type} [DecidableEq ε] (e : ε) :
    (x : Except ε α) → Decidable (x = .error e)
  | .error e' => decidable_of_iff (e' = e) ⟨congrArg _, Except.error.inj⟩
  | .ok _ => .isFalse nofun

open Grammar in
/-- If compiling ends with an unexpected token, the token is one of the source, the only one at its
    place, the tokens in front of it begin a sentence, and with the token they do not. If it ends
    with an unexpected end, that is the end of the source, and its tokens begin a sentence but are
    none. -/
theorem compile_error_at_first_impossible (source : String) (options : Options) :
    (∀ t span expected,
      compile source options = .error (.malformed (.unexpectedToken t span expected)) →
        ∃ before l after tokens, lexemes source = before ++ l :: after ∧ l.outcome = .ok t ∧
          l.span = span ∧ (∀ l' ∈ before ++ after, l'.span ≠ span) ∧
          before.map (·.outcome) = tokens.map .ok ∧ IsViable tokens ∧ ¬ IsViable (tokens ++ [t])) ∧
    ∀ offset expected,
      compile source options = .error (.malformed (.unexpectedEnd offset expected)) →
        offset = source.utf8ByteSize ∧
          ∃ tokens, Lexes source tokens ∧ IsViable tokens ∧ ¬ IsSentence tokens := by
  constructor
  · intro t span expected h
    obtain ⟨before, after, tokens, hlexemes, hbefore, rest, hrest, hr, hstuck, expected', he⟩ :=
      stuck_of_compile h (by simp)
    cases after with
    | nil =>
      subst hrest
      cases he
    | cons l after =>
      rw [TokenStream.ofLexemes] at hrest
      cases hl : l.outcome with
      | error fault =>
        rw [hl] at hrest
        -- What the lexer refuses is reported by the lexer, not as an unexpected token.
        exact absurd hrest.symm (hr _)
      | ok t' =>
        rw [hl] at hrest
        subst hrest
        obtain ⟨rfl, rfl, -⟩ := SyntaxError.unexpectedToken.inj he
        exact ⟨before, l, after, tokens, hlexemes, hl, rfl, fun l' => span_ne_of_lexemes hlexemes,
          hbefore, hstuck.isViable, hstuck.not_isViable⟩
  · intro offset expected h
    obtain ⟨before, after, tokens, hlexemes, hbefore, rest, hrest, hr, hstuck, expected', he⟩ :=
      stuck_of_compile h (by simp)
    cases after with
    | nil =>
      subst hrest
      obtain ⟨rfl, -⟩ := SyntaxError.unexpectedEnd.inj he
      have hlexes : Lexes source tokens := by rw [Lexes, hlexemes, List.append_nil, hbefore]
      exact ⟨rfl, tokens, hlexes, hstuck.isViable, hstuck.not_isSentence⟩
    | cons l after =>
      rw [TokenStream.ofLexemes] at hrest
      split at hrest
      · subst hrest
        cases he
      · exact absurd hrest.symm (hr _)

open Grammar in
/-- Behind the print of a text there can be no operator, and a script cannot end inside of
    parentheses. -/
theorem compile_error_at_first_impossible_sample :
    (∃ before l after tokens, lexemes "print \"a\" + 1" = before ++ l :: after ∧
      l.outcome = .ok (.op .plus) ∧ l.span = ⟨10, 1⟩ ∧ before.map (·.outcome) = tokens.map .ok ∧
      IsViable tokens ∧ ¬ IsViable (tokens ++ [.op .plus])) ∧
    ∃ tokens, Lexes "x = (1" tokens ∧ IsViable tokens ∧ ¬ IsSentence tokens := by
  have htoken : compile "print \"a\" + 1" {} =
      .error (.malformed (.unexpectedToken (.op .plus) ⟨10, 1⟩ .statementEnd)) := by decide +kernel
  have hend : compile "x = (1" {} = .error (.malformed (.unexpectedEnd 6 .rparen)) := by
    decide +kernel
  obtain ⟨before, l, after, tokens, hlexemes, hl, hspan, -, hrest⟩ :=
    (compile_error_at_first_impossible _ _).1 _ _ _ htoken
  exact ⟨⟨before, l, after, tokens, hlexemes, hl, hspan, hrest⟩,
    ((compile_error_at_first_impossible _ _).2 _ _ hend).2⟩

end Straightline
