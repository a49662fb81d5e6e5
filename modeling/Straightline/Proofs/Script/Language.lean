import Straightline.Proofs.Script.Lowering

/-!
# The language

Which sources can be compiled, said by the productions of a grammar over tokens.

* `Phrase.Derives`, `IsStatement` and `IsProgram` are the productions, and `isProgram_iff` says that
  they make exactly the tokens that have a tree.
* `compile_succeeds_iff`: compiling succeeds on these sources and, if reads are checked, on those of
  them that assign before they read.
-/

namespace Straightline

/-! ### Productions -/

/-- The parts of an expression, from the loosest to the tightest. -/
inductive Phrase where
  | expression | additive | term | unary | primary

/-- Tokens make a phrase.

```text
expression := additive (('>' | '<') additive)*
additive   := term (('+' | '-') term)*
term       := unary (('*' | '/') unary)*
unary      := '-' unary | primary
primary    := NUMBER | IDENT | '(' expression ')'
```
-/
inductive Phrase.Derives : Phrase → List Token → Prop
  | additive {ts : List Token} : Derives .additive ts → Derives .expression ts
  | compare {ts us : List Token} {s : Symbol} (hs : s = .greater ∨ s = .less) :
    Derives .expression ts → Derives .additive us → Derives .expression (ts ++ .op s :: us)
  | term {ts : List Token} : Derives .term ts → Derives .additive ts
  | add {ts us : List Token} {s : Symbol} (hs : s = .plus ∨ s = .minus) :
    Derives .additive ts → Derives .term us → Derives .additive (ts ++ .op s :: us)
  | unary {ts : List Token} : Derives .unary ts → Derives .term ts
  | multiply {ts us : List Token} {s : Symbol} (hs : s = .star ∨ s = .slash) :
    Derives .term ts → Derives .unary us → Derives .term (ts ++ .op s :: us)
  | negate {ts : List Token} : Derives .unary ts → Derives .unary (.op .minus :: ts)
  | primary {ts : List Token} : Derives .primary ts → Derives .unary ts
  | number (value : Double) : Derives .primary [.number value]
  | ident (name : String) : Derives .primary [.ident name]
  | parens {ts : List Token} :
    Derives .expression ts → Derives .primary (.lparen :: ts ++ [.rparen])

/-- Tokens make a statement: `print (STRING | expression)` or `IDENT '=' expression`. -/
inductive IsStatement : List Token → Prop
  | printString (text : String) : IsStatement [.print, .str text]
  | printNumber {ts : List Token} : Phrase.expression.Derives ts → IsStatement (.print :: ts)
  | assign {ts : List Token} (name : String) :
    Phrase.expression.Derives ts → IsStatement (.ident name :: .assign :: ts)

/-- Tokens make a program: `(statement? END)* statement?`. -/
inductive IsProgram : List Token → Prop
  | nil : IsProgram []
  | last {ts : List Token} : IsStatement ts → IsProgram ts
  | stop {ts : List Token} : IsProgram ts → IsProgram (.stop :: ts)
  | cons {ts us : List Token} : IsStatement ts → IsProgram us → IsProgram (ts ++ .stop :: us)

/-! ### Productions and trees -/

/-- The phrase of a level. -/
def Phrase.ofLevel : Nat → Phrase
  | 0 => unary
  | 1 => term
  | 2 => additive
  | _ => expression

/-- The level of a phrase. -/
def Phrase.level : Phrase → Nat
  | expression => 3
  | additive => 2
  | term => 1
  | unary => 0
  | primary => 0

/-- Two operands with a symbol between them that can be computed make an operand of the level of the
    symbol. -/
theorem Expr.Reads.exists_join {k : Nat} {l r : Expr Operator} {ts us : List Token}
    (hl : l.Reads Operator.symbol (k + 1) ts) (hr : r.Reads Operator.symbol k us) {s : Symbol}
    (hs : s.IsComputable) (hlevel : s.level = k) :
    ∃ e : Expr Operator, e.Reads Operator.symbol (k + 1) (ts ++ .op s :: us) := by
  obtain ⟨op, rfl⟩ := hs
  exact ⟨.binary op l r, .join op hl hlevel hr⟩

/-- `p.Derives ts` gives a tree: `e.Reads Operator.symbol p.level ts` for some `e`. -/
theorem Phrase.Derives.exists_reads {p : Phrase} {ts : List Token} (h : p.Derives ts) :
    ∃ e : Expr Operator, e.Reads Operator.symbol p.level ts := by
  induction h with
  | additive _ ih | term _ ih | unary _ ih =>
    obtain ⟨e, he⟩ := ih
    exact ⟨e, .operand he⟩
  | compare hs _ _ ihl ihr | add hs _ _ ihl ihr | multiply hs _ _ ihl ihr =>
    obtain ⟨l, hl⟩ := ihl
    obtain ⟨r, hr⟩ := ihr
    refine hl.exists_join hr ((Symbol.isComputable_iff _).mpr ?_) ?_ <;>
    · rcases hs with rfl | rfl <;> decide
  -- A minus in front of a number is read with the number, not as a negation.
  | negate _ ih =>
    obtain ⟨e, he⟩ := ih
    exact he.exists_minus _
  | primary _ ih => exact ih
  | number value => exact ⟨_, .number value⟩
  | ident name => exact ⟨_, .name name⟩
  | parens _ ih =>
    obtain ⟨e, he⟩ := ih
    exact ⟨e, .parens he⟩

/-- `e.Reads Operator.symbol k ts` gives `(Phrase.ofLevel k).Derives ts`. -/
theorem Expr.Reads.derives {k : Nat} {ts : List Token} {e : Expr Operator}
    (h : e.Reads Operator.symbol k ts) : (Phrase.ofLevel k).Derives ts := by
  induction h with
  | number value => exact .primary (.number value)
  | name name => exact .primary (.ident name)
  | parens _ ih => exact .primary (.parens ih)
  | negative value => exact .negate (.primary (.number value))
  | negate _ _ ih => exact .negate ih
  -- From one level to the next, up to the level of whole expressions.
  | @operand k _ _ _ ih =>
    match k with
    | 0 => exact .unary ih
    | 1 => exact .term ih
    | 2 => exact .additive ih
    | _ + 3 => exact ih
  | join op _ hlevel _ ihl ihr =>
    subst hlevel
    rcases op with (_ | _ | _ | _) | (_ | _)
    · exact .add (.inl rfl) ihl ihr
    · exact .add (.inr rfl) ihl ihr
    · exact .multiply (.inl rfl) ihl ihr
    · exact .multiply (.inr rfl) ihl ihr
    · exact .compare (.inl rfl) ihl ihr
    · exact .compare (.inr rfl) ihl ihr

/-- `IsStatement ts` iff `ts` has a tree. -/
theorem isStatement_iff {ts : List Token} :
    IsStatement ts ↔ ∃ s : Statement Operator, s.Reads Operator.symbol ts := by
  constructor
  · rintro (text | h | ⟨name, h⟩)
    · exact ⟨_, .printString text⟩
    · obtain ⟨e, he⟩ := h.exists_reads
      exact ⟨_, .printNumber he⟩
    · obtain ⟨e, he⟩ := h.exists_reads
      exact ⟨_, .assign name he⟩
  · rintro ⟨s, text | h | ⟨name, h⟩⟩
    · exact .printString text
    · exact .printNumber h.derives
    · exact .assign name h.derives

/-- `IsProgram ts` iff `ts` has a tree. -/
theorem isProgram_iff {ts : List Token} :
    IsProgram ts ↔ ∃ script : Script Operator, script.Reads Operator.symbol ts := by
  constructor
  · intro h
    induction h with
    | nil => exact ⟨[], .nil⟩
    | last hs =>
      obtain ⟨s, hs⟩ := isStatement_iff.mp hs
      exact ⟨[s], .last hs⟩
    | stop _ ih =>
      obtain ⟨script, hscript⟩ := ih
      exact ⟨script, .stop hscript⟩
    | cons hs _ ih =>
      obtain ⟨s, hs⟩ := isStatement_iff.mp hs
      obtain ⟨script, hscript⟩ := ih
      exact ⟨s :: script, .cons hs hscript⟩
  · rintro ⟨script, h⟩
    induction h with
    | nil => exact .nil
    | stop _ ih => exact .stop ih
    | last hs => exact .last (isStatement_iff.mpr ⟨_, hs⟩)
    | cons hs _ ih => exact .cons (isStatement_iff.mpr ⟨_, hs⟩) ih

/-! ### What can be compiled -/

/-- A source with a token that cannot be computed has no tree: `ParsesTo source script` for no
    `script`. -/
theorem not_parsesTo_of_symbol {source : String} {l : Lexeme} (hl : l ∈ lexemes source) {s : Symbol}
    (hop : l.outcome = .ok (.op s)) (hs : ¬ s.IsComputable) (script : Script Operator) :
    ¬ ParsesTo source script := by
  rintro ⟨tokens, hlex, hreads⟩
  have hmem : (.ok (.op s) : Except Fault Token) ∈ tokens.map .ok := by
    rw [← hlex, ← hop]
    exact List.mem_map_of_mem hl
  obtain ⟨t, ht, heq⟩ := List.mem_map.mp hmem
  obtain rfl := Except.ok.inj heq
  rcases hreads.symbol_mem _ ht with rfl | ⟨op, rfl⟩
  · exact hs ⟨.arithmetic .sub, rfl⟩
  · exact hs ⟨op, rfl⟩

/-- A source can be compiled iff it consists of tokens that make a program and, under the policy
    `error`, nothing is read before an assignment to it is completed. So no source with a token `%`,
    `^` or `==` can be compiled. -/
theorem compile_succeeds_iff (source : String) (options : Options) :
    ((∃ m, compile source options = .ok m) ↔
      (∃ tokens, Lexes source tokens ∧ IsProgram tokens) ∧
        (options.reads = .error →
          ∃ script, ParsesTo source script ∧ AssignedBeforeRead script.accesses)) ∧
    ∀ s ∈ [Symbol.percent, .caret, .equal],
      (∃ l ∈ lexemes source, l.outcome = .ok (.op s)) → ¬ ∃ m, compile source options = .ok m := by
  refine ⟨⟨?_, ?_⟩, ?_⟩
  · rintro ⟨m, h⟩
    obtain ⟨script, hscript⟩ := parsesTo_of_compile h
    refine ⟨?_, fun hpolicy => ⟨script, hscript, ?_⟩⟩
    · obtain ⟨tokens, hlex, hreads⟩ := hscript
      exact ⟨tokens, hlex, isProgram_iff.mpr ⟨script, hreads⟩⟩
    · exact (assignedBeforeRead_iff _).mpr (hscript.firstUnassigned?_eq_none h hpolicy)
  · rintro ⟨⟨tokens, hlex, hprogram⟩, hread⟩
    obtain ⟨script, hreads⟩ := isProgram_iff.mp hprogram
    have hscript : ParsesTo source script := ⟨tokens, hlex, hreads⟩
    refine ⟨_, hscript.compile_eq_ok fun hpolicy => ?_⟩
    obtain ⟨script', hscript', hassigned⟩ := hread hpolicy
    -- The script is the one that was lowered, as a source is read in one way only.
    rw [hscript.unique hscript']
    exact (assignedBeforeRead_iff _).mp hassigned
  · rintro s hs ⟨l, hl, hop⟩ ⟨m, h⟩
    obtain ⟨script, hscript⟩ := parsesTo_of_compile h
    have hbad : ∀ s ∈ [Symbol.percent, .caret, .equal],
        ¬ (s ≠ .equal ∧ s ≠ .percent ∧ s ≠ .caret) := by decide
    exact not_parsesTo_of_symbol hl hop
      (fun h => hbad s hs (s.isComputable_iff.mp h)) script hscript

/-- The sample is in the language, but it reads `x`, which nothing is assigned to. A lone `%` is
    not. -/
theorem compile_succeeds_sample :
    (∃ m, compile sampleSource {} = .ok m) ∧
      (¬ ∃ m, compile sampleSource { reads := .error } = .ok m) ∧
      ¬ ∃ m, compile "%" {} = .ok m := by
  refine ⟨(compile_succeeds_iff sampleSource {}).1.mpr ⟨?_, by simp⟩, fun h => ?_,
    (compile_succeeds_iff "%" {}).2 .percent (by decide) ?_⟩
  · obtain ⟨tokens, hlex, hreads⟩ := parsesTo_sample
    exact ⟨tokens, hlex, isProgram_iff.mpr ⟨_, hreads⟩⟩
  · obtain ⟨script, hscript, hassigned⟩ :=
      ((compile_succeeds_iff sampleSource { reads := .error }).1.mp h).2 rfl
    rw [hscript.unique parsesTo_sample, assignedBeforeRead_iff] at hassigned
    exact absurd hassigned (by decide)
  · -- `%` is read as an operator and has no instruction.
    have hlex : Lexes "%" [.op .percent] := by decide +kernel
    have hmem : (.ok (.op .percent) : Except Fault Token) ∈ (lexemes "%").map (·.outcome) := by
      rw [hlex]
      exact List.mem_singleton_self _
    exact List.mem_map.mp hmem

end Straightline
