import Straightline.Proofs.Script.Grammar
import Straightline.Script.Parser

/-!
# Reading follows the grammar

The reader of token streams and the grammar agree: it reads a source to the end iff the tokens of
the source make a script, and then the steps it finds are those of the script.

* `Parsed.Leaves` says what a successful reading found and left. Each function of the reader has one
  lemma that says when it succeeds, and the rest of the module uses these only.
* `operand_sound` and `operand_complete` relate the reader of expressions and the derivations.
* `parse_yields_iff` is the whole: `(parse source).Yields steps ()` iff the source makes a script
  with these steps.
* `ParsesTo.unique`: a source has at most one tree.
-/

namespace Straightline

/-! ### Successful readings -/

namespace Parsed

variable {α β : Type} {p : TokenStream → Prop}

/-- `q.Yields steps a`: reading found these steps and ended with the result `a`. -/
def Yields (q : Parsed α) (steps : List Step) (a : α) : Prop :=
  q.steps.map (·.step) = steps ∧ q.outcome = .ok a

/-- `q.Leaves steps rest`: reading found these steps and left `rest` of a stream. -/
def Leaves (q : Parsed { rest : TokenStream // p rest }) (steps : List Step) (rest : TokenStream) :
    Prop :=
  ∃ h, q.Yields steps ⟨rest, h⟩

/-- `pure a` yields `a` and no steps. -/
theorem yields_pure {a b : α} {steps : List Step} :
    (pure a : Parsed α).Yields steps b ↔ steps = [] ∧ a = b := by
  show [] = steps ∧ Except.ok a = Except.ok b ↔ _
  rw [eq_comm, Except.ok.injEq]

/-- `fail e` yields nothing. -/
theorem not_yields_fail {e : SyntaxError} {steps : List Step} {a : α} :
    ¬ (fail e : Parsed α).Yields steps a := by
  rintro ⟨-, h⟩
  cases h

/-- `found step span` yields the step. -/
theorem yields_found {step : Step} {span : Span} {steps : List Step} {u : Unit} :
    (found step span).Yields steps u ↔ steps = [step] := by
  show [step] = steps ∧ Except.ok () = Except.ok u ↔ _
  rw [eq_comm]
  exact and_iff_left rfl

/-- `q >>= next` yields iff both do, and their steps are joined. -/
theorem yields_bind {q : Parsed α} {next : α → Parsed β} {steps : List Step} {b : β} :
    (q >>= next).Yields steps b ↔
      ∃ first a last, q.Yields first a ∧ (next a).Yields last b ∧ steps = first ++ last := by
  rw [bind_eq_andThen]
  cases h : q.outcome with
  | error e =>
    rw [andThen_of_error next h]
    constructor
    · rintro ⟨-, hb⟩
      cases hb
    · rintro ⟨_, _, _, ⟨-, ha⟩, -⟩
      rw [h] at ha
      cases ha
  -- The steps of the first parser stand in front of those of the second.
  | ok a =>
    rw [andThen_of_ok next h]
    constructor
    · rintro ⟨rfl, hb⟩
      exact ⟨_, a, _, ⟨rfl, h⟩, ⟨rfl, hb⟩, List.map_append⟩
    · rintro ⟨first, a', last, ⟨hf, ha⟩, ⟨hl, hb⟩, rfl⟩
      rw [h, Except.ok.injEq] at ha
      subst ha
      refine ⟨?_, hb⟩
      show List.map _ (_ ++ _) = _
      rw [List.map_append, hf, hl]

/-- After a part of a stream, only what it left matters. -/
theorem yields_bind_of {q : Parsed { rest : TokenStream // p rest }}
    {next : { rest : TokenStream // p rest } → Parsed β} (R : TokenStream → List Step → Prop)
    {b : β} (hnext : ∀ a last, (next a).Yields last b ↔ R a.1 last) {steps : List Step} :
    (q >>= next).Yields steps b ↔
      ∃ first mid last, q.Leaves first mid ∧ R mid last ∧ steps = first ++ last := by
  rw [yields_bind]
  constructor
  · rintro ⟨first, a, last, hq, hn, heq⟩
    exact ⟨first, a.1, last, ⟨a.2, hq⟩, (hnext a last).mp hn, heq⟩
  · rintro ⟨first, mid, last, ⟨hp, hq⟩, hn, heq⟩
    exact ⟨first, ⟨mid, hp⟩, last, hq, (hnext ⟨mid, hp⟩ last).mpr hn, heq⟩

variable {p' : TokenStream → Prop}

/-- `pure a` leaves `a` and finds no steps. -/
theorem leaves_pure {a : { rest : TokenStream // p rest }} {steps : List Step}
    {rest : TokenStream} :
    (pure a : Parsed { rest : TokenStream // p rest }).Leaves steps rest ↔ steps = [] ∧
      a.1 = rest := by
  constructor
  · rintro ⟨_, h⟩
    obtain ⟨rfl, rfl⟩ := yields_pure.mp h
    exact ⟨rfl, rfl⟩
  · rintro ⟨rfl, rfl⟩
    exact ⟨a.2, yields_pure.mpr ⟨rfl, rfl⟩⟩

/-- `fail e` leaves nothing. -/
theorem not_leaves_fail {e : SyntaxError} {steps : List Step} {rest : TokenStream} :
    ¬ (fail e : Parsed { rest : TokenStream // p rest }).Leaves steps rest := by
  rintro ⟨_, h⟩
  exact not_yields_fail h

/-- `q >>= next` leaves what `next` leaves of what `q` left. -/
theorem leaves_bind_of {q : Parsed { rest : TokenStream // p rest }}
    {next : { rest : TokenStream // p rest } → Parsed { rest : TokenStream // p' rest }}
    (R : TokenStream → List Step → Prop) {rest : TokenStream}
    (hnext : ∀ a last, (next a).Leaves last rest ↔ R a.1 last) {steps : List Step} :
    (q >>= next).Leaves steps rest ↔
      ∃ first mid last, q.Leaves first mid ∧ R mid last ∧ steps = first ++ last := by
  constructor
  · rintro ⟨hp, h⟩
    obtain ⟨first, a, last, hq, hn, heq⟩ := yields_bind.mp h
    exact ⟨first, a.1, last, ⟨a.2, hq⟩, (hnext a last).mp ⟨hp, hn⟩, heq⟩
  · rintro ⟨first, mid, last, ⟨hp, hq⟩, hn, heq⟩
    obtain ⟨hp', hn'⟩ := (hnext ⟨mid, hp⟩ last).mpr hn
    exact ⟨hp', yields_bind.mpr ⟨first, ⟨mid, hp⟩, last, hq, hn', heq⟩⟩

/-- Bounding the rest in another way changes nothing. -/
theorem leaves_bind_pure {q : Parsed { rest : TokenStream // p rest }}
    {bound : ∀ a : { rest : TokenStream // p rest }, p' a.1} {steps : List Step}
    {rest : TokenStream} :
    (q >>=
      fun a => (pure ⟨a.1, bound a⟩ : Parsed { rest : TokenStream // p' rest })).Leaves steps rest ↔
      q.Leaves steps rest := by
  have hpure : ∀ (a : { rest : TokenStream // p rest }) last,
      (pure ⟨a.1, bound a⟩ : Parsed { rest : TokenStream // p' rest }).Leaves last rest ↔
        last = [] ∧ a.1 = rest := fun a last => leaves_pure
  rw [leaves_bind_of (fun mid last => last = [] ∧ mid = rest) hpure]
  constructor
  · rintro ⟨first, mid, _, hq, ⟨rfl, rfl⟩, rfl⟩
    rwa [List.append_nil]
  · intro hq
    exact ⟨steps, rest, [], hq, ⟨rfl, rfl⟩, (List.append_nil _).symm⟩

/-- `found step span` puts its step in front. -/
theorem leaves_found_bind {step : Step} {span : Span}
    {next : Unit → Parsed { rest : TokenStream // p rest }} {steps : List Step}
    {rest : TokenStream} :
    (found step span >>= next).Leaves steps rest ↔
      ∃ last, (next ()).Leaves last rest ∧ steps = step :: last := by
  constructor
  · rintro ⟨hp, h⟩
    obtain ⟨_, _, last, hf, hn, rfl⟩ := yields_bind.mp h
    exact ⟨last, ⟨hp, hn⟩, by rw [yields_found.mp hf, List.singleton_append]⟩
  · rintro ⟨last, ⟨hp, hn⟩, rfl⟩
    exact ⟨hp, yields_bind.mpr ⟨[step], (), last, yields_found.mpr rfl, hn, rfl⟩⟩

end Parsed

namespace TokenStream

open Parsed

/-- `s.IsReadable`: the stream does not start with text that is no token. -/
def IsReadable (s : TokenStream) : Prop := ∀ e, s ≠ broken e

/-- A stream that starts with a token can be read. -/
theorem isReadable_token (t : Token) (span : Span) (rest : TokenStream) :
    (token t span rest).IsReadable := by
  intro e h
  cases h

/-- `enter` succeeds iff the stream can be read. -/
theorem yields_enter {s : TokenStream} {steps : List Step} {u : Unit} :
    s.enter.Yields steps u ↔ steps = [] ∧ s.IsReadable := by
  cases s with
  | token t span rest => exact yields_pure.trans (by simp [isReadable_token])
  | ended offset => exact yields_pure.trans (by simp [IsReadable])
  | broken e => exact iff_of_false not_yields_fail fun h => h.2 e rfl

/-- `enter` and what follows yield iff the stream can be read and what follows yields. -/
theorem yields_enter_bind {β : Type} {s : TokenStream} {next : Unit → Parsed β} {steps : List Step}
    {b : β} : (s.enter >>= next).Yields steps b ↔ s.IsReadable ∧ (next ()).Yields steps b := by
  rw [yields_bind]
  constructor
  · rintro ⟨_, _, last, h, hn, rfl⟩
    obtain ⟨rfl, hs⟩ := yields_enter.mp h
    exact ⟨hs, hn⟩
  · rintro ⟨hs, hn⟩
    exact ⟨[], (), steps, yields_enter.mpr ⟨rfl, hs⟩, hn, rfl⟩

/-- `enter` and what follows leave iff the stream can be read and what follows leaves. -/
theorem leaves_enter_bind {p : TokenStream → Prop} {s : TokenStream}
    {next : Unit → Parsed { rest : TokenStream // p rest }} {steps : List Step}
    {rest : TokenStream} :
    (s.enter >>= next).Leaves steps rest ↔ s.IsReadable ∧ (next ()).Leaves steps rest := by
  constructor
  · rintro ⟨hp, h⟩
    obtain ⟨hs, hn⟩ := yields_enter_bind.mp h
    exact ⟨hs, hp, hn⟩
  · rintro ⟨hs, hp, hn⟩
    exact ⟨hp, yields_enter_bind.mpr ⟨hs, hn⟩⟩

/-! ### When the functions of the reader succeed -/

/-- `expect t` succeeds iff the stream starts with `t` and the rest can be read. -/
theorem leaves_expect {t : Token} {expected : Expectation} {s : TokenStream} {steps : List Step}
    {rest : TokenStream} :
    (s.expect t expected).Leaves steps rest ↔
      steps = [] ∧ rest.IsReadable ∧ ∃ span, s = token t span rest := by
  cases s with
  | token t' span next =>
    rw [expect]
    split
    · next h =>
      subst h
      rw [leaves_enter_bind, leaves_pure]
      constructor
      · rintro ⟨hr, rfl, rfl⟩
        exact ⟨rfl, hr, span, rfl⟩
      · rintro ⟨rfl, hr, span', heq⟩
        obtain ⟨-, -, rfl⟩ := token.inj heq
        exact ⟨hr, rfl, rfl⟩
    · next h =>
      refine iff_of_false not_leaves_fail ?_
      rintro ⟨-, -, span', heq⟩
      exact h (token.inj heq).1
  -- No token here, so none that could be the expected one.
  | broken e | ended offset =>
    refine iff_of_false not_leaves_fail ?_
    rintro ⟨-, -, span, heq⟩
    cases heq

/-- An operand of level 0 is read by `unary`. -/
theorem leaves_operand_zero {s : TokenStream} {steps : List Step} {rest : TokenStream} :
    (s.operand 0).Leaves steps rest ↔ s.unary.Leaves steps rest := by
  rw [operand]

/-- An operand of the next level is read by `operand` and then `operators`. -/
theorem leaves_operand_succ {k : Nat} {s : TokenStream} {steps : List Step} {rest : TokenStream} :
    (s.operand (k + 1)).Leaves steps rest ↔
      ∃ first mid last, (s.operand k).Leaves first mid ∧ (mid.operators k).Leaves last rest ∧
        steps = first ++ last := by
  rw [operand]
  exact leaves_bind_of (fun mid last => (mid.operators k).Leaves last rest) fun a last =>
    leaves_bind_pure

/-- `s.NoOperator k`: what the stream starts with is not an operator of level `k`. -/
def NoOperator (k : Nat) (s : TokenStream) : Prop :=
  ∀ symbol span rest, s = token (.op symbol) span rest → symbol.level ≠ k

/-- A stream starts with an operator of the level or not. -/
theorem noOperator_or (k : Nat) (s : TokenStream) :
    s.NoOperator k ∨ ∃ symbol span rest, s = token (.op symbol) span rest ∧ symbol.level = k := by
  by_cases h : ∃ symbol span rest, s = token (.op symbol) span rest ∧ symbol.level = k
  · exact .inr h
  · exact .inl fun symbol span rest hs hk => h ⟨symbol, span, rest, hs, hk⟩

/-- `operators k` leaves everything where there is no operator of the level. -/
theorem leaves_operators_stop {k : Nat} {s : TokenStream} (h : s.NoOperator k) {steps : List Step}
    {rest : TokenStream} : (s.operators k).Leaves steps rest ↔ steps = [] ∧ s = rest := by
  rw [operators.eq_def]
  split
  · next symbol span next =>
    rw [if_neg (h symbol span next rfl)]
    exact leaves_pure
  · exact leaves_pure

/-- `operators k` reads an operator of the level, its right operand and then more operators. -/
theorem leaves_operators_symbol {symbol : Symbol} {span : Span} {s : TokenStream}
    {steps : List Step} {rest : TokenStream} :
    ((token (.op symbol) span s).operators symbol.level).Leaves steps rest ↔
      s.IsReadable ∧ ∃ first mid last, (s.operand symbol.level).Leaves first mid ∧
        (mid.operators symbol.level).Leaves last rest ∧
        steps = first ++ .apply symbol :: last := by
  rw [operators, if_pos rfl, leaves_enter_bind]
  refine and_congr_right fun _ => ?_
  -- Behind the right operand comes the step of the operator, and then more operators of the level.
  rw [leaves_bind_of
    (fun mid last => ∃ last', (mid.operators symbol.level).Leaves last' rest ∧
      last = .apply symbol :: last')
    fun a last => leaves_found_bind.trans
      (exists_congr fun last' => and_congr_left' leaves_bind_pure)]
  constructor
  · rintro ⟨first, mid, _, hq, ⟨last, hn, rfl⟩, rfl⟩
    exact ⟨first, mid, last, hq, hn, rfl⟩
  · rintro ⟨first, mid, last, hq, hn, rfl⟩
    exact ⟨first, mid, _, hq, ⟨last, hn, rfl⟩, rfl⟩

/-- A reading that ends by finding a step. -/
theorem leaves_bind_found {p p' : TokenStream → Prop} {q : Parsed { rest : TokenStream // p rest }}
    {step : Step} {span : Span} {bound : ∀ a : { rest : TokenStream // p rest }, p' a.1}
    {steps : List Step} {rest : TokenStream} :
    (q >>= fun a => found step span >>= fun _ =>
      (pure ⟨a.1, bound a⟩ : Parsed { rest : TokenStream // p' rest })).Leaves steps rest ↔
      ∃ first, q.Leaves first rest ∧ steps = first ++ [step] := by
  have hfound : ∀ (a : { rest : TokenStream // p rest }) last,
      (found step span >>= fun _ =>
        (pure ⟨a.1, bound a⟩ : Parsed { rest : TokenStream // p' rest })).Leaves last rest ↔
        last = [step] ∧ a.1 = rest := by
    intro a last
    rw [leaves_found_bind]
    constructor
    · rintro ⟨last', h, rfl⟩
      obtain ⟨rfl, hrest⟩ := leaves_pure.mp h
      exact ⟨rfl, hrest⟩
    · rintro ⟨rfl, h⟩
      exact ⟨[], leaves_pure.mpr ⟨rfl, h⟩, rfl⟩
  -- `found` adds its step and moves nothing.
  rw [leaves_bind_of (fun mid last => last = [step] ∧ mid = rest) hfound]
  constructor
  · rintro ⟨first, mid, _, hq, ⟨rfl, rfl⟩, rfl⟩
    exact ⟨first, hq, rfl⟩
  · rintro ⟨first, hq, rfl⟩
    exact ⟨first, rest, _, hq, ⟨rfl, rfl⟩, rfl⟩

/-- A token that is a step by itself. -/
theorem leaves_enter_found {p : TokenStream → Prop} {s : TokenStream} {step : Step} {span : Span}
    {bound : p s} {steps : List Step} {rest : TokenStream} :
    (s.enter >>= fun _ => found step span >>= fun _ =>
      (pure ⟨s, bound⟩ : Parsed { rest : TokenStream // p rest })).Leaves steps rest ↔
      s.IsReadable ∧ steps = [step] ∧ s = rest := by
  rw [leaves_enter_bind]
  refine and_congr_right fun _ => ?_
  rw [leaves_found_bind]
  constructor
  · rintro ⟨last, h, rfl⟩
    obtain ⟨rfl, hrest⟩ := leaves_pure.mp h
    exact ⟨rfl, hrest⟩
  · rintro ⟨rfl, h⟩
    exact ⟨[], leaves_pure.mpr ⟨rfl, h⟩, rfl⟩

/-- `UnaryLeaves s steps rest`: how an operand without operators in the middle is read. -/
inductive UnaryLeaves : TokenStream → List Step → TokenStream → Prop
  | negative (value : Double) (span span' : Span) {rest : TokenStream} : rest.IsReadable →
    UnaryLeaves (token (.op .minus) span (token (.number value) span' rest)) [.push (-value)] rest
  | negate (span : Span) {s rest : TokenStream} {steps : List Step} :
    (∀ value span' next, s ≠ token (.number value) span' next) → s.IsReadable →
      s.unary.Leaves steps rest →
        UnaryLeaves (token (.op .minus) span s) (steps ++ [.negate]) rest
  | number (value : Double) (span : Span) {rest : TokenStream} : rest.IsReadable →
    UnaryLeaves (token (.number value) span rest) [.push value] rest
  | name (name : String) (span : Span) {rest : TokenStream} : rest.IsReadable →
    UnaryLeaves (token (.ident name) span rest) [.read name] rest
  | parens (span span' : Span) {s rest : TokenStream} {steps : List Step} : s.IsReadable →
    (s.operand 3).Leaves steps (token .rparen span' rest) → rest.IsReadable →
      UnaryLeaves (token .lparen span s) steps rest

/-- `unary` reads an expression between parentheses. -/
theorem leaves_unary_parens {span : Span} {s rest : TokenStream} {steps : List Step} :
    (token .lparen span s).unary.Leaves steps rest ↔
      s.IsReadable ∧ rest.IsReadable ∧
      ∃ span', (s.operand 3).Leaves steps (token .rparen span' rest) := by
  rw [unary, leaves_enter_bind]
  refine and_congr_right fun _ => ?_
  rw [leaves_bind_of
    (fun mid last => last = [] ∧ rest.IsReadable ∧ ∃ span', mid = token .rparen span' rest)
    fun a last => leaves_bind_pure.trans leaves_expect]
  constructor
  · rintro ⟨first, mid, last, hq, ⟨rfl, hr, span', rfl⟩, rfl⟩
    exact ⟨hr, span', by rwa [List.append_nil]⟩
  · rintro ⟨hr, span', hq⟩
    exact ⟨steps, _, [], hq, ⟨rfl, hr, span', rfl⟩, (List.append_nil _).symm⟩

/-- `s.unary.Leaves` is `UnaryLeaves`. -/
theorem leaves_unary_iff {s : TokenStream} {steps : List Step} {rest : TokenStream} :
    s.unary.Leaves steps rest ↔ UnaryLeaves s steps rest := by
  constructor
  · intro h
    rw [unary.eq_def] at h
    split at h
    · obtain ⟨hr, rfl, rfl⟩ := leaves_enter_found.mp h
      exact .negative _ _ _ hr
    · next span s hs =>
      obtain ⟨hr, h⟩ := leaves_enter_bind.mp h
      obtain ⟨first, hu, rfl⟩ := leaves_bind_found.mp h
      exact .negate _ hs hr hu
    · obtain ⟨hr, rfl, rfl⟩ := leaves_enter_found.mp h
      exact .number _ _ hr
    · obtain ⟨hr, rfl, rfl⟩ := leaves_enter_found.mp h
      exact .name _ _ hr
    · next span s =>
      have h' : (token .lparen span s).unary.Leaves steps rest := by rwa [unary]
      obtain ⟨hs, hr, span', h'⟩ := leaves_unary_parens.mp h'
      exact .parens _ _ hs h' hr
    · exact absurd h not_leaves_fail
  · intro h
    cases h with
    | negative value span span' hr =>
      rw [unary]
      exact leaves_enter_found.mpr ⟨hr, rfl, rfl⟩
    | negate span hs hr hu =>
      -- The equation for a minus sign in front of anything but a number.
      rw [unary.eq_2 _ _ hs]
      exact leaves_enter_bind.mpr ⟨hr, leaves_bind_found.mpr ⟨_, hu, rfl⟩⟩
    | number value span hr =>
      rw [unary]
      exact leaves_enter_found.mpr ⟨hr, rfl, rfl⟩
    | name name span hr =>
      rw [unary]
      exact leaves_enter_found.mpr ⟨hr, rfl, rfl⟩
    | parens span span' hs h hr => exact leaves_unary_parens.mpr ⟨hs, hr, span', h⟩

/-- `StatementLeaves s steps rest`: how a statement is read. -/
inductive StatementLeaves : TokenStream → List Step → TokenStream → Prop
  | printString (text : String) (span span' : Span) {rest : TokenStream} : rest.IsReadable →
    StatementLeaves (token .print span (token (.str text) span' rest)) [.printString text] rest
  | printNumber (span : Span) {s rest : TokenStream} {steps : List Step} :
    (∀ text span' next, s ≠ token (.str text) span' next) → s.IsReadable →
      (s.operand 3).Leaves steps rest →
        StatementLeaves (token .print span s) (steps ++ [.printNumber]) rest
  | assign (name : String) (span span' : Span) {s rest : TokenStream} {steps : List Step} :
    s.IsReadable → (s.operand 3).Leaves steps rest →
      StatementLeaves (token (.ident name) span (token .assign span' s))
      (steps ++ [.write name]) rest

/-- `statement` reads an equals sign and an expression behind a name. -/
theorem leaves_statement_assign {name : String} {span : Span} {s rest : TokenStream}
    {steps : List Step} :
    (token (.ident name) span s).statement.Leaves steps rest ↔
      ∃ span' s' first, s = token .assign span' s' ∧ s'.IsReadable ∧
        (s'.operand 3).Leaves first rest ∧
        steps = first ++ [.write name] := by
  rw [statement, leaves_enter_bind, leaves_bind_of
    (fun mid last => ∃ first, (mid.operand 3).Leaves first rest ∧ last = first ++ [.write name])
    fun a last => leaves_bind_found]
  constructor
  · rintro ⟨-, _, mid, _, hq, ⟨first, hf, rfl⟩, rfl⟩
    obtain ⟨rfl, hr, span', rfl⟩ := leaves_expect.mp hq
    exact ⟨span', mid, first, rfl, hr, hf, rfl⟩
  · rintro ⟨span', s', first, rfl, hr, hf, rfl⟩
    exact ⟨isReadable_token _ _ _, [], s', _, leaves_expect.mpr ⟨rfl, hr, span', rfl⟩,
      ⟨first, hf, rfl⟩, rfl⟩

/-- `s.statement.Leaves` is `StatementLeaves`. -/
theorem leaves_statement_iff {s : TokenStream} {steps : List Step} {rest : TokenStream} :
    s.statement.Leaves steps rest ↔ StatementLeaves s steps rest := by
  constructor
  · intro h
    rw [statement.eq_def] at h
    split at h
    · obtain ⟨hr, rfl, rfl⟩ := leaves_enter_found.mp h
      exact .printString _ _ _ hr
    · next span s hs =>
      obtain ⟨hr, h⟩ := leaves_enter_bind.mp h
      obtain ⟨first, hu, rfl⟩ := leaves_bind_found.mp h
      exact .printNumber _ hs hr hu
    · -- The test of the reader for the name stays, so that the lemma for assignments applies.
      next name span s =>
      have h' : (token (.ident name) span s).statement.Leaves steps rest := by rwa [statement]
      obtain ⟨span', s', first, rfl, hr, hf, rfl⟩ := leaves_statement_assign.mp h'
      exact .assign _ _ _ hr hf
    · exact absurd h not_leaves_fail
  · intro h
    cases h with
    | printString text span span' hr =>
      rw [statement]
      exact leaves_enter_found.mpr ⟨hr, rfl, rfl⟩
    | printNumber span hs hr hu =>
      rw [statement.eq_2 _ _ hs]
      exact leaves_enter_bind.mpr ⟨hr, leaves_bind_found.mpr ⟨_, hu, rfl⟩⟩
    | assign name span span' hr hf =>
      exact leaves_statement_assign.mpr ⟨span', _, _, rfl, hr, hf, rfl⟩

/-- `ProgramYields s steps`: how the statements up to the end are read. -/
inductive ProgramYields : TokenStream → List Step → Prop
  | nil (offset : Nat) : ProgramYields (ended offset) []
  | stop (span : Span) {s : TokenStream} {steps : List Step} : s.IsReadable →
    s.program.Yields steps () → ProgramYields (token .stop span s) steps
  | last (offset : Nat) {s : TokenStream} {steps : List Step} :
    s.statement.Leaves steps (ended offset) → ProgramYields s steps
  | cons (span : Span) {s rest : TokenStream} {first last : List Step} :
    s.statement.Leaves first (token .stop span rest) → rest.IsReadable →
      rest.program.Yields last () → ProgramYields s (first ++ last)

/-- `s.FollowsStatement steps`: the stream goes on behind a statement. It ends, or statements follow
    an end of statement. -/
def FollowsStatement (s : TokenStream) (steps : List Step) : Prop :=
  (∃ offset, s = ended offset ∧ steps = []) ∨
    ∃ span rest, s = token .stop span rest ∧ rest.IsReadable ∧ rest.program.Yields steps ()

/-- How reading goes on behind a statement. -/
def afterStatement : TokenStream → Parsed Unit
  | ended _ => return ()
  | token .stop _ rest => do
    rest.enter
    rest.program
  | s => .fail (s.errorHere .statementEnd)

/-- `s.afterStatement.Yields` is `FollowsStatement`. -/
theorem yields_afterStatement {s : TokenStream} {steps : List Step} :
    s.afterStatement.Yields steps () ↔ s.FollowsStatement steps := by
  unfold afterStatement
  split
  · simp [yields_pure, FollowsStatement]
  · rw [yields_enter_bind]
    constructor
    · intro h
      exact .inr ⟨_, _, rfl, h⟩
    · rintro (⟨offset, h, -⟩ | ⟨span, rest, h, hr⟩)
      · cases h
      · cases h
        exact hr
  · next hended hstop =>
    refine iff_of_false not_yields_fail ?_
    rintro (⟨offset, rfl, -⟩ | ⟨span, rest, rfl, -⟩)
    · exact hended offset rfl
    · exact hstop span rest rfl

/-- `program` is `statement` and then `afterStatement` where there is a statement. -/
theorem program_eq_statement {s : TokenStream} (hended : ∀ offset, s ≠ ended offset)
    (hstop : ∀ span rest, s ≠ token .stop span rest) :
    s.program = s.statement >>= fun a => a.1.afterStatement := by
  rw [program.eq_3 _ hended hstop]
  refine congrArg (s.statement >>= ·) (funext fun a => ?_)
  obtain ⟨mid, hmid⟩ := a
  cases mid with
  | ended | broken => rfl
  | token t span rest => cases t <;> rfl

/-- `s.program.Yields` is `ProgramYields`. -/
theorem yields_program_iff {s : TokenStream} {steps : List Step} :
    s.program.Yields steps () ↔ ProgramYields s steps := by
  have hrest : ∀ (a : s.Shorter) (last : List Step),
      a.1.afterStatement.Yields last () ↔ a.1.FollowsStatement last :=
        fun _ _ => yields_afterStatement
  constructor
  · intro h
    have hprogram := h
    rw [program.eq_def] at hprogram
    split at hprogram
    · obtain ⟨rfl, -⟩ := yields_pure.mp hprogram
      exact .nil _
    · obtain ⟨hr, hprogram⟩ := yields_enter_bind.mp hprogram
      exact .stop _ hr hprogram
    · next hended hstop =>
      rw [program_eq_statement hended hstop] at h
      obtain ⟨first, mid, last, hs, hm, rfl⟩ := (yields_bind_of FollowsStatement hrest).mp h
      rcases hm with ⟨offset, rfl, rfl⟩ | ⟨span, rest, rfl, hr, hp⟩
      · rw [List.append_nil]
        exact .last offset hs
      · exact .cons span hs hr hp
  · have hstatement : ∀ {first mid last}, s.statement.Leaves first mid →
        mid.FollowsStatement last → s.program.Yields (first ++ last) () := by
      intro first mid last hs hm
      rw [program_eq_statement]
      · exact (yields_bind_of FollowsStatement hrest).mpr ⟨first, mid, last, hs, hm, rfl⟩
      -- A statement starts neither at the end nor with an end of statement.
      · rintro offset rfl
        cases leaves_statement_iff.mp hs
      · rintro span rest rfl
        cases leaves_statement_iff.mp hs
    intro h
    cases h with
    | nil offset =>
      rw [program]
      exact yields_pure.mpr ⟨rfl, rfl⟩
    | stop span hr h =>
      rw [program]
      exact yields_enter_bind.mpr ⟨hr, h⟩
    | last offset hs =>
      rw [← List.append_nil steps]
      exact hstatement hs (.inl ⟨offset, rfl, rfl⟩)
    | cons span hs hr hp => exact hstatement hs (.inr ⟨span, _, rfl, hr, hp⟩)

/-! ### Tokens in front of a stream -/

/-- `s.Consumes ts rest`: the stream starts with the tokens `ts`, and `rest` is behind them. -/
inductive Consumes : TokenStream → List Token → TokenStream → Prop
  | nil (s : TokenStream) : Consumes s [] s
  | cons (t : Token) (span : Span) {s rest : TokenStream} {ts : List Token} :
    Consumes s ts rest → Consumes (token t span s) (t :: ts) rest

/-- Tokens behind tokens. -/
theorem Consumes.append {s mid rest : TokenStream} {ts us : List Token} (h : s.Consumes ts mid)
    (h' : mid.Consumes us rest) : s.Consumes (ts ++ us) rest := by
  induction h with
  | nil s => exact h'
  | cons t span _ ih => exact .cons t span (ih h')

/-- A stream that starts with `ts ++ us` has a place between the two. -/
theorem Consumes.split {s rest : TokenStream} {ts us : List Token}
    (h : s.Consumes (ts ++ us) rest) : ∃ mid, s.Consumes ts mid ∧ mid.Consumes us rest := by
  induction ts generalizing s with
  | nil => exact ⟨s, .nil s, h⟩
  | cons t ts ih =>
    cases h with
    | cons _ span h =>
      obtain ⟨mid, h₁, h₂⟩ := ih h
      exact ⟨mid, .cons t span h₁, h₂⟩

/-- A token in front of the rest. -/
theorem Consumes.head {s rest : TokenStream} {t : Token} {ts : List Token}
    (h : s.Consumes (t :: ts) rest) :
    ∃ span next, s = token t span next ∧ next.Consumes ts rest := by
  cases h with
  | cons _ span h => exact ⟨span, _, rfl, h⟩

/-- Where more tokens follow, a stream can be read. -/
theorem Consumes.isReadable {s rest : TokenStream} {ts : List Token} (h : s.Consumes ts rest)
    (hrest : rest.IsReadable) : s.IsReadable := by
  cases h with
  | nil => exact hrest
  | cons t span _ => exact isReadable_token t span _

/-- Readings of this kind leave a shorter stream. -/
theorem size_lt_of_leaves {s rest : TokenStream} {q : Parsed s.Shorter} {steps : List Step}
    (h : q.Leaves steps rest) : rest.size < s.size := h.1

/-! ### What is read is derived -/

/-- `ReadsOperand k s steps rest`: the stream starts with an operand of level `k` that has these
    steps. -/
def ReadsOperand (k : Nat) (s : TokenStream) (steps : List Step) (rest : TokenStream) : Prop :=
  ∃ ts e, s.Consumes ts rest ∧ rest.IsReadable ∧ Expr.Reads id k ts e ∧ steps = e.steps

/-- What `unary` reads is an operand of level 0, if `operand` is sound on shorter streams. -/
theorem unary_sound {s : TokenStream}
    (ih : ∀ s' : TokenStream, s'.size < s.size →
      ∀ {k steps rest}, (s'.operand k).Leaves steps rest →
      ReadsOperand k s' steps rest) {steps : List Step} {rest : TokenStream}
    (h : s.unary.Leaves steps rest) : ReadsOperand 0 s steps rest := by
  cases leaves_unary_iff.mp h with
  | negative value span span' hr =>
    exact ⟨_, _, .cons _ _ (.cons _ _ (.nil _)), hr, .negative value, rfl⟩
  | @negate span s' rest steps' hs' _ hu =>
    obtain ⟨ts, e, hc, hr, he, rfl⟩ := ih s' (by simp) (leaves_operand_zero.mpr hu)
    refine ⟨_, .negate e, .cons _ _ hc, hr, .negate he ?_, rfl⟩
    -- The operand starts where the stream does, and that is no number.
    intro value hhead
    cases hc with
    | nil => simp at hhead
    | cons t span' _ =>
      rw [List.head?_cons, Option.some.injEq] at hhead
      exact hs' value span' _ (by rw [hhead])
  | number value span hr => exact ⟨_, _, .cons _ _ (.nil _), hr, .number value, rfl⟩
  | name name span hr => exact ⟨_, _, .cons _ _ (.nil _), hr, .name name, rfl⟩
  | @parens span span' s' rest steps' _ ho hr =>
    obtain ⟨ts, e, hc, -, he, rfl⟩ := ih s' (by simp) ho
    exact ⟨_, e, .cons _ _ (hc.append (.cons _ _ (.nil _))), hr, .parens he, rfl⟩

/-- What `operators k` reads behind an operand of level `k + 1` makes a longer one, if `operand` is
    sound on shorter streams. -/
theorem operators_sound {k : Nat} {s : TokenStream} (hs : s.IsReadable)
    (ih : ∀ s' : TokenStream, s'.size < s.size →
      ∀ {k steps rest}, (s'.operand k).Leaves steps rest →
      ReadsOperand k s' steps rest) {steps : List Step} {rest : TokenStream}
    (h : (s.operators k).Leaves steps rest) {start : TokenStream} {ts : List Token}
    {lhs : Expr Symbol} (hc : start.Consumes ts s) (hlhs : lhs.Reads id (k + 1) ts) :
    ReadsOperand (k + 1) start (lhs.steps ++ steps) rest := by
  rcases s.noOperator_or k with hop | ⟨symbol, span, next, rfl, rfl⟩
  · obtain ⟨rfl, rfl⟩ := (leaves_operators_stop hop).mp h
    exact ⟨ts, lhs, hc, hs, hlhs, List.append_nil _⟩
  · -- The stream starts with an operator of the level: read its right operand and go on behind it.
    obtain ⟨-, first, mid, last, ho, hl, rfl⟩ := leaves_operators_symbol.mp h
    obtain ⟨us, rhs, hus, hmid, hrhs, rfl⟩ := ih next (by simp) ho
    have hlt : mid.size < next.size := size_lt_of_leaves ho
    -- With the right operand, what was read so far is the left operand of what follows.
    have hnext := operators_sound hmid
      (fun s' hs' => ih s' (by rw [size_token]; omega)) hl
      (hc.append (.cons (.op symbol) span hus)) (.join symbol hlhs rfl hrhs)
    simpa [Expr.steps] using hnext
termination_by s.size
decreasing_by
  subst_vars
  rw [size_token]
  omega

/-- What `operand k` reads is an operand of level `k`. -/
theorem operand_sound {k : Nat} {s : TokenStream} {steps : List Step} {rest : TokenStream}
    (h : (s.operand k).Leaves steps rest) : ReadsOperand k s steps rest := by
  -- Inside of a stream of one size, the induction is on the level.
  induction hn : s.size using Nat.strongRecOn generalizing s k steps rest with
  | ind n ih =>
    have ih' : ∀ s' : TokenStream, s'.size < s.size → ∀ {k steps rest},
        (s'.operand k).Leaves steps rest → ReadsOperand k s' steps rest :=
      fun s' hs' {k steps rest} h' => ih s'.size (hn ▸ hs') h' rfl
    induction k generalizing steps rest with
    | zero => exact unary_sound ih' (leaves_operand_zero.mp h)
    | succ k ihk =>
      obtain ⟨first, mid, last, ho, hl, rfl⟩ := leaves_operand_succ.mp h
      obtain ⟨ts, e, hc, hmid, he, rfl⟩ := ihk ho
      have hlt : mid.size < s.size := size_lt_of_leaves ho
      exact operators_sound hmid (fun s' hs' => ih' s' (by omega)) hl hc (.operand he)

/-- What `statement` reads is a statement. -/
theorem statement_sound {s : TokenStream} {steps : List Step} {rest : TokenStream}
    (h : s.statement.Leaves steps rest) :
    ∃ ts st, s.Consumes ts rest ∧ Statement.Reads id ts st ∧ steps = st.steps := by
  cases leaves_statement_iff.mp h with
  | printString text span span' _ =>
    exact ⟨_, _, .cons _ _ (.cons _ _ (.nil _)), .printString text, rfl⟩
  | printNumber span _ _ ho =>
    obtain ⟨ts, e, hc, -, he, rfl⟩ := operand_sound ho
    exact ⟨_, .printNumber e, .cons _ _ hc, .printNumber he, rfl⟩
  | assign name span span' _ ho =>
    obtain ⟨ts, e, hc, -, he, rfl⟩ := operand_sound ho
    exact ⟨_, .assign name e, .cons _ _ (.cons _ _ hc), .assign name he, rfl⟩

/-- What `program` reads to the end is a script. -/
theorem program_sound {s : TokenStream} {steps : List Step} (h : s.program.Yields steps ()) :
    ∃ ts script offset, s.Consumes ts (ended offset) ∧ Script.Reads id ts script ∧
      steps = Script.steps script := by
  cases yields_program_iff.mp h with
  | nil offset => exact ⟨[], [], offset, .nil _, .nil, rfl⟩
  -- Every rule but the last ones leaves a shorter stream, for which the statement holds.
  | stop span _ hp =>
    obtain ⟨ts, script, offset, hc, hr, rfl⟩ := program_sound hp
    exact ⟨_, script, offset, .cons _ _ hc, .stop hr, rfl⟩
  | last offset hs =>
    obtain ⟨ts, st, hc, hr, rfl⟩ := statement_sound hs
    exact ⟨ts, [st], offset, hc, .last hr, by simp⟩
  | cons span hs _ hp =>
    obtain ⟨ts, st, hc, hr, rfl⟩ := statement_sound hs
    obtain ⟨us, script, offset, hc', hr', rfl⟩ := program_sound hp
    exact ⟨_, st :: script, offset, hc.append (.cons _ _ hc'), .cons hr hr', by simp⟩
termination_by s.size
decreasing_by
  · subst_vars
    simp
  · have := size_lt_of_leaves hs
    rw [size_token] at this
    omega

/-! ### What is derived is read -/

/-- `s.NoTighter k`: what the stream starts with is no operator of a level below `k`, which would
    belong to an operand of level `k` in front of it. -/
def NoTighter (k : Nat) (s : TokenStream) : Prop := ∀ j < k, s.NoOperator j

/-- A token that is no operator is not tighter. -/
theorem noTighter_token {t : Token} {span : Span} {rest : TokenStream} (h : ∀ s, t ≠ .op s)
    (k : Nat) :
    (token t span rest).NoTighter k := by
  intro j _ symbol span' rest' heq
  exact absurd (token.inj heq).1 (h symbol)

/-- The end is no operator. -/
theorem noTighter_ended (offset k : Nat) : (ended offset).NoTighter k := by
  intro j _ symbol span rest heq
  cases heq

/-- A symbol is not tighter than its own level. -/
theorem noTighter_symbol (symbol : Symbol) (span : Span) (rest : TokenStream) :
    (token (.op symbol) span rest).NoTighter symbol.level := by
  intro j hj symbol' span' rest' heq
  obtain ⟨h, -, -⟩ := token.inj heq
  rw [← Token.op.inj h]
  omega

/-- `IsRead k ts e`: the tokens are read as the operand `e` of level `k`, wherever they stand. Above
    level 0 the operators behind them are read in the same go. -/
def IsRead (k : Nat) (ts : List Token) (e : Expr Symbol) : Prop :=
  ∀ s rest : TokenStream, s.Consumes ts rest → rest.IsReadable →
    match k with
    | 0 => s.unary.Leaves e.steps rest
    | k + 1 => ∀ steps last, rest.NoTighter k → (rest.operators k).Leaves steps last →
      (s.operand (k + 1)).Leaves (e.steps ++ steps) last

/-- The reader stops behind an operand if no tighter operator follows. -/
theorem IsRead.operand {k : Nat} {ts : List Token} {e : Expr Symbol} (h : IsRead k ts e)
    {s rest : TokenStream} (hc : s.Consumes ts rest) (hr : rest.IsReadable)
    (hk : rest.NoTighter k) :
    (s.operand k).Leaves e.steps rest := by
  cases k with
  | zero => exact leaves_operand_zero.mpr (h s rest hc hr)
  | succ k =>
    have hstop := (leaves_operators_stop (hk k (by omega))).mpr ⟨rfl, rfl⟩
    have hread := h s rest hc hr [] rest (fun j hj => hk j (by omega)) hstop
    rwa [List.append_nil] at hread

/-- Tokens with `e.Reads id k ts` are read as `e`. -/
theorem operand_complete {k : Nat} {ts : List Token} {e : Expr Symbol} (h : e.Reads id k ts) :
    IsRead k ts e := by
  induction h with
  | number value =>
    intro s rest hc hr
    obtain ⟨span, next, rfl, hnil⟩ := hc.head
    cases hnil
    exact leaves_unary_iff.mpr (.number value span hr)
  | name name =>
    intro s rest hc hr
    obtain ⟨span, next, rfl, hnil⟩ := hc.head
    cases hnil
    exact leaves_unary_iff.mpr (.name name span hr)
  | parens _ ih =>
    intro s rest hc hr
    obtain ⟨span, s', rfl, hs'⟩ := hc.head
    obtain ⟨mid, hts, hmid⟩ := hs'.split
    obtain ⟨span', next, rfl, hnil⟩ := hmid.head
    cases hnil
    have hread := isReadable_token .rparen span' rest
    have hinner := ih.operand hts hread (noTighter_token (by simp) 3)
    exact leaves_unary_iff.mpr (.parens span span' (hts.isReadable hread) hinner hr)
  | negative value =>
    intro s rest hc hr
    obtain ⟨span, s', rfl, hs'⟩ := hc.head
    obtain ⟨span', next, rfl, hnil⟩ := hs'.head
    cases hnil
    exact leaves_unary_iff.mpr (.negative value span span' hr)
  | negate he hhead ih =>
    intro s rest hc hr
    obtain ⟨span, s', rfl, hs'⟩ := hc.head
    refine leaves_unary_iff.mpr (.negate span ?_ (hs'.isReadable hr) (ih s' rest hs' hr))
    -- The derivation excludes an operand that starts with a number.
    rintro value span' next rfl
    cases hs' with
    | nil => exact he.ne_nil id rfl
    | cons => exact hhead value rfl
  | operand _ ih =>
    intro s rest hc hr steps last hk hl
    exact leaves_operand_succ.mpr ⟨_, rest, _, ih.operand hc hr hk, hl, rfl⟩
  | join symbol _ hlevel _ ihl ihr =>
    intro s rest hc hr steps last hk hl
    subst hlevel
    obtain ⟨mid, hts, hmid⟩ := hc.split
    obtain ⟨span, next, rfl, hus⟩ := hmid.head
    have hrhs := ihr.operand hus hr hk
    -- Behind the left operand, the operators start with this one and go on behind the right
    -- operand.
    have hop : ((token (.op symbol) span next).operators symbol.level).Leaves _ last :=
      leaves_operators_symbol.mpr ⟨hus.isReadable hr, _, rest, _, hrhs, hl, rfl⟩
    have hread := ihl s _ hts (isReadable_token _ _ _) _ _ (noTighter_symbol symbol span next) hop
    simpa [Expr.steps] using hread

/-- No operand starts with a string. -/
theorem not_leaves_operand_str {k : Nat} {text : String} {span : Span} {s rest : TokenStream}
    {steps : List Step} : ¬ ((token (.str text) span s).operand k).Leaves steps rest := by
  induction k generalizing steps rest with
  | zero =>
    intro h
    cases leaves_unary_iff.mp (leaves_operand_zero.mp h)
  | succ k ih =>
    intro h
    obtain ⟨_, _, _, ho, -⟩ := leaves_operand_succ.mp h
    exact ih ho

/-- Tokens with `st.Reads id ts` are read as `st`. -/
theorem statement_complete {ts : List Token} {st : Statement Symbol} (h : st.Reads id ts)
    {s rest : TokenStream} (hc : s.Consumes ts rest) (hr : rest.IsReadable)
    (hk : rest.NoTighter 3) :
    s.statement.Leaves st.steps rest := by
  cases h with
  | printString text =>
    obtain ⟨span, s', rfl, hs'⟩ := hc.head
    obtain ⟨span', next, rfl, hnil⟩ := hs'.head
    cases hnil
    exact leaves_statement_iff.mpr (.printString text span span' hr)
  | printNumber he =>
    obtain ⟨span, s', rfl, hs'⟩ := hc.head
    have hread := (operand_complete he).operand hs' hr hk
    refine leaves_statement_iff.mpr (.printNumber span ?_ (hs'.isReadable hr) hread)
    -- No expression starts with a string.
    rintro text span' next rfl
    exact not_leaves_operand_str hread
  | assign name he =>
    obtain ⟨span, s', rfl, hs'⟩ := hc.head
    obtain ⟨span', next, rfl, hnext⟩ := hs'.head
    have hread := (operand_complete he).operand hnext hr hk
    exact leaves_statement_iff.mpr (.assign name span span' (hnext.isReadable hr) hread)

/-- Tokens with `script.Reads id ts` up to the end are read as `script`. -/
theorem program_complete {ts : List Token} {script : Script Symbol} (h : script.Reads id ts)
    {s : TokenStream} {offset : Nat} (hc : s.Consumes ts (ended offset)) :
    s.program.Yields (Script.steps script) () := by
  have hended : (ended offset).IsReadable := fun e h => by cases h
  induction h generalizing s with
  | nil =>
    cases hc
    exact yields_program_iff.mpr (.nil offset)
  | stop _ ih =>
    obtain ⟨span, s', rfl, hs'⟩ := hc.head
    exact yields_program_iff.mpr (.stop span (hs'.isReadable hended) (ih hs'))
  | last hs =>
    rw [Script.steps_cons, Script.steps_nil, List.append_nil]
    have hread := statement_complete hs hc hended (noTighter_ended offset 3)
    exact yields_program_iff.mpr (.last offset hread)
  -- Behind the statement stands its `;`, which binds no operand.
  | cons hs _ ih =>
    obtain ⟨mid, hts, hmid⟩ := hc.split
    obtain ⟨span, next, rfl, hnext⟩ := hmid.head
    have hread := statement_complete hs hts (isReadable_token _ _ _) (noTighter_token (by simp) 3)
    rw [Script.steps_cons]
    exact yields_program_iff.mpr (.cons span hread (hnext.isReadable hended) (ih hnext))

/-! ### Sources -/

/-- The stream of lexemes consists of the tokens `ts` iff these are their outcomes. -/
theorem consumes_ofLexemes {length : Nat} {ls : List Lexeme} {ts : List Token} {offset : Nat} :
    (ofLexemes length ls).Consumes ts (ended offset) ↔
      ls.map (·.outcome) = ts.map .ok ∧ offset = length := by
  induction ls generalizing ts with
  | nil =>
    rw [ofLexemes]
    constructor
    · rintro ⟨⟩
      exact ⟨rfl, rfl⟩
    · rintro ⟨hts, rfl⟩
      rw [List.map_nil, eq_comm, List.map_eq_nil_iff] at hts
      subst hts
      exact .nil _
  | cons l ls ih =>
    rw [ofLexemes]
    cases hl : l.outcome with
    | error fault =>
      -- The stream breaks off here, and the text has no outcome among those of tokens.
      constructor
      · rintro ⟨⟩
      · rintro ⟨hts, -⟩
        cases ts <;> simp [hl] at hts
    | ok t =>
      dsimp only
      constructor
      · rintro (_ | ⟨_, _, h⟩)
        obtain ⟨hts, hoffset⟩ := ih.mp h
        exact ⟨by rw [List.map_cons, List.map_cons, hl, hts], hoffset⟩
      · rintro ⟨hts, hoffset⟩
        cases ts with
        | nil => simp at hts
        | cons t' ts =>
          simp only [List.map_cons, hl, List.cons.injEq, Except.ok.injEq] at hts
          obtain ⟨rfl, hts⟩ := hts
          exact .cons t l.span (ih.mpr ⟨hts, hoffset⟩)

end TokenStream

/-- `parse` reads a source to its end iff its tokens make a script, and then the steps are those of
    the script. -/
theorem parse_yields_iff {source : String} {steps : List Step} :
    (parse source).Yields steps () ↔
      ∃ tokens script, Lexes source tokens ∧ Script.Reads id tokens script ∧
        steps = Script.steps script := by
  constructor
  · intro h
    obtain ⟨ts, script, offset, hc, hr, rfl⟩ := TokenStream.program_sound h
    exact ⟨ts, script, (TokenStream.consumes_ofLexemes.mp hc).1, hr, rfl⟩
  · rintro ⟨ts, script, hlex, hr, rfl⟩
    exact TokenStream.program_complete hr (TokenStream.consumes_ofLexemes.mpr ⟨hlex, rfl⟩)

/-- `ParsesTo` gives a source at most one tree. -/
theorem ParsesTo.unique {source : String} {script script' : Script Operator}
    (h : ParsesTo source script) (h' : ParsesTo source script') : script = script' := by
  obtain ⟨ts, hlex, hr⟩ := h
  obtain ⟨ts', hlex', hr'⟩ := h'
  -- The source is read in one way, and the steps determine the tree.
  have hy := parse_yields_iff.mpr ⟨ts, _, hlex, hr.mapped _, rfl⟩
  have hy' := parse_yields_iff.mpr ⟨ts', _, hlex', hr'.mapped _, rfl⟩
  have hsteps := hy.1.symm.trans hy'.1
  exact Script.mapOperators_injective Operator.symbol_injective (Script.steps_injective hsteps)

end Straightline
