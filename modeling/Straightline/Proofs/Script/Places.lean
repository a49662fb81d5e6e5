import Straightline.Proofs.Script.Reading
import Straightline.Script.Compile

/-!
# Places do not matter

Tokens that stand at other places are read in the same way, and only the places of what is found
change.

* A `Relocation` gives every place of a source another one: `Relocation.shift n` the place `n` bytes
  later, and `Relocation.forget` the same place to all.
* `relocated f` does so to an error, a step or a whole stream. It changes nothing of an error but
  where it is shown: `ScriptError.diagnostic_relocated`.
* `Parsed.Alike` says that two readings do the same, the second one at relocated places. Each
  function of the reader has one `alike_` lemma, and `TokenStream.alike_program` is the whole.
-/

namespace Straightline

/-! ### Moving -/

/-- The stretch of the same length that starts `n` bytes later. -/
def Span.moved (n : Nat) (span : Span) : Span := ⟨span.start + n, span.length⟩

/-- The same error `n` bytes later. -/
def SyntaxError.moved (n : Nat) : SyntaxError → SyntaxError
  | badLexeme fault text span => badLexeme fault text (span.moved n)
  | unexpectedToken t span expected => unexpectedToken t (span.moved n) expected
  | unexpectedEnd offset expected => unexpectedEnd (offset + n) expected

/-- The same error `n` bytes later. -/
def ScriptError.moved (n : Nat) : ScriptError → ScriptError
  | malformed error => malformed (error.moved n)
  | emission cause span => emission cause (span.moved n)

/-- The same lexeme `n` bytes later. -/
def Lexeme.moved (n : Nat) (l : Lexeme) : Lexeme := { l with offset := l.offset + n }

/-! ### Other places -/

/-- Another place for every place. -/
structure Relocation where
  place : Span → Span
  /-- What covers no text, such as the end of a source, still covers none. -/
  length_place : ∀ offset, (place ⟨offset, 0⟩).length = 0

namespace Relocation

/-- A relocation takes a place that covers no text to such a place. -/
theorem point_eq (f : Relocation) (offset : Nat) :
    ⟨(f.place ⟨offset, 0⟩).start, 0⟩ = f.place ⟨offset, 0⟩ := by
  have hlength := f.length_place offset
  generalize f.place ⟨offset, 0⟩ = span at hlength ⊢
  obtain ⟨start, length⟩ := span
  obtain rfl : length = 0 := hlength
  rfl

/-- All places `n` bytes later. -/
def shift (n : Nat) : Relocation := ⟨Span.moved n, fun _ => rfl⟩

/-- The same place for all. -/
def forget : Relocation := ⟨fun _ => ⟨0, 0⟩, fun _ => rfl⟩

end Relocation

/-- The same error at the other place. -/
def SyntaxError.relocated (f : Relocation) : SyntaxError → SyntaxError
  | badLexeme fault text span => badLexeme fault text (f.place span)
  | unexpectedToken t span expected => unexpectedToken t (f.place span) expected
  | unexpectedEnd offset expected => unexpectedEnd (f.place ⟨offset, 0⟩).start expected

/-- The same error at the other place. -/
def ScriptError.relocated (f : Relocation) : ScriptError → ScriptError
  | malformed error => malformed (error.relocated f)
  | emission cause span => emission cause (f.place span)

/-- The same step at the other place. -/
def PlacedStep.relocated (f : Relocation) (s : PlacedStep) : PlacedStep :=
  { s with span := f.place s.span }

/-- The same tokens at the other places. -/
def TokenStream.relocated (f : Relocation) : TokenStream → TokenStream
  | token t span rest => token t (f.place span) (rest.relocated f)
  | broken error => broken (error.relocated f)
  | ended offset => ended (f.place ⟨offset, 0⟩).start

/-- `shift n` relocates errors as `moved n` does. -/
theorem ScriptError.relocated_shift (n : Nat) (e : ScriptError) :
    e.relocated (.shift n) = e.moved n := by
  rcases e with (_ | _ | _) | _ <;> rfl

/-- `e.relocated f` is shown with the same words at the other place. -/
theorem ScriptError.diagnostic_relocated (f : Relocation) (e : ScriptError) :
    (e.relocated f).diagnostic = { e.diagnostic with span := f.place e.diagnostic.span } := by
  rcases e with (⟨_ | _ | _, text, span⟩ | ⟨t, span, expected⟩ | ⟨offset, expected⟩) | ⟨cause, span⟩
  case malformed.unexpectedEnd =>
    exact congrArg (fun span =>
      { (SyntaxError.unexpectedEnd offset expected).diagnostic with span })
      (f.point_eq offset)
  all_goals rfl

/-- `e.moved n` is shown with the same words at the moved place. -/
theorem ScriptError.diagnostic_moved (n : Nat) (e : ScriptError) :
    (e.moved n).diagnostic = { e.diagnostic with span := e.diagnostic.span.moved n } := by
  rw [← relocated_shift, diagnostic_relocated]
  rfl

/-! ### Lexemes -/

/-- `byteLength` counts the bytes of a text by its characters. -/
theorem byteLength_toList (s : String) : byteLength s.toList = s.utf8ByteSize := by
  have hofList : ∀ cs : List Char, (String.ofList cs).utf8ByteSize = byteLength cs := by
    intro cs
    induction cs with
    | nil => rfl
    | cons c cs ih =>
      rw [← List.singleton_append, String.ofList_append, String.utf8ByteSize_append, ih,
        ← String.singleton_eq_ofList, String.utf8ByteSize_singleton]
      rfl
  rw [← hofList, String.ofList_toList]

/-- Every character has bytes. -/
theorem byteLength_pos {cs : List Char} (h : cs ≠ []) : 0 < byteLength cs := by
  obtain ⟨c, cs, rfl⟩ := List.exists_cons_of_ne_nil h
  have hsize := c.utf8Size_pos
  rw [byteLength_cons]
  omega

/-- Only the empty text has no bytes. -/
theorem eq_nil_of_byteLength {cs : List Char} (h : byteLength cs = 0) : cs = [] := by
  by_cases hne : cs = []
  · exact hne
  · have hpos := byteLength_pos hne
    omega

section

variable {offset : Nat} {cs skipped rest : List Char} {c : Char}

/-- Blanks and comments have no lexemes. -/
theorem lexemesFrom_of_trivia (h : splitTrivia false cs = (skipped, [])) :
    lexemesFrom offset cs = [] := by
  rw [lexemesFrom]
  split
  · rfl
  · next h' => simp [h] at h'

/-- Behind the blanks there is one lexeme, and then those of what follows it. -/
theorem lexemesFrom_of_scan (h : splitTrivia false cs = (skipped, c :: rest)) :
    lexemesFrom offset cs =
      ⟨(scanToken c rest).outcome, (scanToken c rest).text, offset + byteLength skipped⟩ ::
        lexemesFrom (offset + byteLength skipped + byteLength (scanToken c rest).text)
          (scanToken c rest).rest := by
  rw [lexemesFrom]
  split
  · next h' => simp [h] at h'
  · next h' =>
    simp only [h, Prod.mk.injEq, List.cons.injEq] at h'
    obtain ⟨rfl, rfl, rfl⟩ := h'
    rfl

end

/-- `lexemesFrom` gives the same lexemes `n` bytes later. -/
theorem lexemesFrom_add (n offset : Nat) (cs : List Char) :
    lexemesFrom (offset + n) cs = (lexemesFrom offset cs).map (Lexeme.moved n) := by
  fun_induction lexemesFrom offset cs with
  | case1 offset cs skipped h => exact lexemesFrom_of_trivia h
  | case2 offset cs skipped c rest h start scan ih =>
    have hstart : offset + n + byteLength skipped = start + n := by
      show _ = offset + byteLength skipped + n
      omega
    have hnext : start + n + byteLength scan.text = start + byteLength scan.text + n := by omega
    rw [lexemesFrom_of_scan h, hstart, hnext, ih]
    rfl

namespace TokenStream

/-- Lexemes that are moved make the stream that is relocated by `shift n`. -/
theorem ofLexemes_moved (n length : Nat) (ls : List Lexeme) :
    ofLexemes (length + n) (ls.map (Lexeme.moved n)) =
      (ofLexemes length ls).relocated (.shift n) := by
  induction ls with
  | nil => rfl
  | cons l ls ih =>
    have hl : (l.moved n).outcome = l.outcome := rfl
    rw [List.map_cons, ofLexemes, ofLexemes, hl]
    cases l.outcome with
    | ok t =>
      dsimp only
      rw [ih]
      rfl
    | error fault => rfl

end TokenStream

/-! ### Readings -/

namespace Parsed

/-- `AlikeOutcome f R`: two outcomes are related results, or an error and the same error at the
    other place. -/
inductive AlikeOutcome {α β : Type} (f : Relocation) (R : α → β → Prop) :
    Except SyntaxError α → Except SyntaxError β → Prop
  | ok {a : α} {b : β} : R a b → AlikeOutcome f R (.ok a) (.ok b)
  | error (e : SyntaxError) : AlikeOutcome f R (.error e) (.error (e.relocated f))

/-- `Alike f R q q'`: two readings find the same steps, the second one at the other places, and end
    alike. -/
structure Alike {α β : Type} (f : Relocation) (R : α → β → Prop) (q : Parsed α)
    (q' : Parsed β) : Prop where
  steps : q'.steps = q.steps.map (PlacedStep.relocated f)
  outcome : AlikeOutcome f R q.outcome q'.outcome

/-- What is left of a stream and of the stream at other places. -/
def RelocatedRest {p p' : TokenStream → Prop} (f : Relocation)
    (a : { rest : TokenStream // p rest }) (b : { rest : TokenStream // p' rest }) : Prop :=
  b.1 = a.1.relocated f

section

variable {α β γ δ : Type} {f : Relocation} {R : α → β → Prop} {R' : γ → δ → Prop}

/-- `pure` on related values. -/
theorem alike_pure {a : α} {b : β} (h : R a b) : Alike f R (pure a) (pure b) := ⟨rfl, .ok h⟩

/-- `fail` with the same error. -/
theorem alike_fail (e : SyntaxError) : Alike f R (fail e) (fail (e.relocated f)) := ⟨rfl, .error e⟩

/-- `found` with the same step. -/
theorem alike_found (step : Step) (span : Span) :
    Alike f (fun _ _ => True) (found step span) (found step (f.place span)) :=
  ⟨rfl, .ok trivial⟩

/-- `Alike` goes through `>>=`. -/
theorem Alike.bind {q : Parsed α} {q' : Parsed β} {next : α → Parsed γ} {next' : β → Parsed δ}
    (h : Alike f R q q') (hnext : ∀ a b, R a b → Alike f R' (next a) (next' b)) :
    Alike f R' (q >>= next) (q' >>= next') := by
  obtain ⟨steps, outcome⟩ := q
  obtain ⟨steps', outcome'⟩ := q'
  obtain ⟨rfl, houtcome⟩ := h
  cases houtcome with
  | error e => exact ⟨rfl, .error e⟩
  | ok hab =>
    have hn := hnext _ _ hab
    refine ⟨?_, hn.outcome⟩
    -- The steps of both parts are relocated, and so is the whole.
    show _ ++ _ = List.map _ (_ ++ _)
    rw [List.map_append, hn.steps]

end

end Parsed

namespace TokenStream

open Parsed

variable {f : Relocation}

/-- `s.relocated f` starts with a token iff `s` starts with it. -/
theorem exists_of_relocated_eq_token {s rest' : TokenStream} {t : Token} {span' : Span}
    (h : s.relocated f = token t span' rest') :
    ∃ span rest, s = token t span rest ∧ rest' = rest.relocated f := by
  cases s with
  | token t' span rest =>
    obtain ⟨rfl, -, rfl⟩ := token.inj h
    exact ⟨span, rest, rfl, rfl⟩
  | broken | ended => cases h

/-- `errorHere` at the other places. -/
theorem errorHere_relocated (expected : Expectation) (s : TokenStream) :
    (s.relocated f).errorHere expected = (s.errorHere expected).relocated f := by
  cases s <;> rfl

/-- `spanHere` at the other places, where the stream can be read. -/
theorem spanHere_relocated {s : TokenStream} (h : s.IsReadable) :
    (s.relocated f).spanHere = f.place s.spanHere := by
  cases s with
  | token => rfl
  | ended offset => exact f.point_eq offset
  | broken e => exact absurd rfl (h e)

/-- `enter` and what follows, where the stream can be read. -/
theorem alike_enter_bind {α β : Type} {R : α → β → Prop} {s : TokenStream} {next : Unit → Parsed α}
    {next' : Unit → Parsed β} (h : s.IsReadable → Alike f R (next ()) (next' ())) :
    Alike f R (s.enter >>= next) ((s.relocated f).enter >>= next') := by
  cases s with
  | token t span rest => exact h (isReadable_token t span rest)
  | ended offset => exact h fun e he => by cases he
  | broken e => exact ⟨rfl, .error e⟩

/-- `expect` reads alike at other places. -/
theorem alike_expect (t : Token) (expected : Expectation) (s : TokenStream) :
    Alike f (RelocatedRest f) (s.expect t expected) ((s.relocated f).expect t expected) := by
  cases s with
  | token t' span rest =>
    rw [relocated, expect, expect]
    split
    · exact alike_enter_bind fun _ => alike_pure rfl
    · exact alike_fail (errorHere expected (token t' span rest))
  | broken e => exact alike_fail e
  | ended offset => exact alike_fail (.unexpectedEnd offset expected)

/-! ### Operands -/

/-- `operators k` reads nothing where there is no operator of the level. -/
theorem operators_of_noOperator {k : Nat} {s : TokenStream} (h : s.NoOperator k) :
    s.operators k = pure ⟨s, Nat.le_refl _⟩ := by
  rw [operators.eq_def]
  split
  · next symbol span rest => exact if_neg (h symbol span rest rfl)
  · rfl

/-- `NoOperator` at the other places. -/
theorem noOperator_relocated {k : Nat} {s : TokenStream} (h : s.NoOperator k) :
    (s.relocated f).NoOperator k := by
  intro symbol span rest hs
  obtain ⟨_, _, rfl, -⟩ := exists_of_relocated_eq_token hs
  exact h symbol _ _ rfl

section

variable {s : TokenStream}
  (ih : ∀ s' : TokenStream, s'.size < s.size → ∀ k,
    Alike f (RelocatedRest f) (s'.operand k) ((s'.relocated f).operand k))

include ih

/-- `unary` reads alike, if the operands of shorter streams do. -/
theorem alike_unary : Alike f (RelocatedRest f) s.unary (s.relocated f).unary := by
  rw [unary.eq_def s]
  split
  · next value span rest =>
    rw [relocated, relocated, unary]
    exact alike_enter_bind fun _ => (alike_found _ _).bind fun _ _ _ => alike_pure rfl
  · next span rest hnumber =>
    rw [relocated, unary]
    · refine alike_enter_bind fun _ => ?_
      have hrest := ih rest (by simp) 0
      rw [operand, operand] at hrest
      exact hrest.bind fun _ _ hab => (alike_found _ _).bind fun _ _ _ => alike_pure hab
    · intro value span' rest' h
      obtain ⟨span'', rest'', h', -⟩ := exists_of_relocated_eq_token h
      exact hnumber value span'' rest'' h'
  · next value span rest =>
    rw [relocated, unary]
    exact alike_enter_bind fun _ => (alike_found _ _).bind fun _ _ _ => alike_pure rfl
  · next name span rest =>
    rw [relocated, unary]
    exact alike_enter_bind fun _ => (alike_found _ _).bind fun _ _ _ => alike_pure rfl
  · next span rest =>
    rw [relocated, unary]
    refine alike_enter_bind fun _ => (ih rest (by simp) 3).bind fun inner inner' hinner => ?_
    obtain ⟨inner', _⟩ := inner'
    obtain rfl : inner' = inner.1.relocated f := hinner
    exact (alike_expect _ _ inner.1).bind fun _ _ hab => alike_pure hab
  · -- None of the cases applies to `s`, and so none applies to `s.relocated f`.
    next hnegative hminus hnumber hname hparen =>
    rw [unary]
    · rw [errorHere_relocated]
      exact alike_fail _
    · intro span value span' rest h
      obtain ⟨_, _, rfl, hrest⟩ := exists_of_relocated_eq_token h
      obtain ⟨_, _, rfl, -⟩ := exists_of_relocated_eq_token hrest.symm
      exact hnegative _ _ _ _ rfl
    · intro span rest h
      obtain ⟨_, _, rfl, -⟩ := exists_of_relocated_eq_token h
      exact hminus _ _ rfl
    · intro value span rest h
      obtain ⟨_, _, rfl, -⟩ := exists_of_relocated_eq_token h
      exact hnumber _ _ _ rfl
    · intro name span rest h
      obtain ⟨_, _, rfl, -⟩ := exists_of_relocated_eq_token h
      exact hname _ _ _ rfl
    · intro span rest h
      obtain ⟨_, _, rfl, -⟩ := exists_of_relocated_eq_token h
      exact hparen _ _ rfl

/-- `operators` reads alike, if the operands of the streams that are not longer do. -/
theorem alike_operators (k : Nat) {s' : TokenStream} (hle : s'.size ≤ s.size) :
    Alike f (RelocatedRest f) (s'.operators k) ((s'.relocated f).operators k) := by
  rcases s'.noOperator_or k with hop | ⟨symbol, span, rest, rfl, hlevel⟩
  · rw [operators_of_noOperator hop, operators_of_noOperator (noOperator_relocated hop)]
    exact alike_pure rfl
  · have hlt : rest.size < s.size := by rw [size_token] at hle; omega
    rw [relocated, operators, operators, if_pos hlevel, if_pos hlevel]
    -- The operand is shorter than the stream, so `ih` has it, and the loop goes on behind it.
    refine alike_enter_bind fun _ => (ih rest hlt k).bind fun next next' hnext => ?_
    obtain ⟨next', _⟩ := next'
    obtain rfl : next' = next.1.relocated f := hnext
    have hnextlt := next.2
    refine (alike_found _ _).bind fun _ _ _ => ?_
    exact (alike_operators k (by omega)).bind fun _ _ hab => alike_pure hab
termination_by s'.size
decreasing_by
  subst_vars
  rw [size_token]
  omega

end

/-- `operand` reads alike at other places. -/
theorem alike_operand (k : Nat) (s : TokenStream) :
    Alike f (RelocatedRest f) (s.operand k) ((s.relocated f).operand k) := by
  have ih : ∀ s' : TokenStream, s'.size < s.size → ∀ k,
      Alike f (RelocatedRest f) (s'.operand k) ((s'.relocated f).operand k) :=
    fun s' hlt k => alike_operand k s'
  -- Inside of a stream of one size, the induction is on the level.
  induction k with
  | zero =>
    rw [operand, operand]
    exact alike_unary ih
  | succ k ihk =>
    rw [operand, operand]
    refine ihk.bind fun first first' hfirst => ?_
    obtain ⟨first', _⟩ := first'
    obtain rfl : first' = first.1.relocated f := hfirst
    exact (alike_operators ih k (Nat.le_of_lt first.2)).bind fun _ _ hab => alike_pure hab
termination_by s.size

/-! ### Statements and programs -/

/-- `statement` reads alike at other places. -/
theorem alike_statement (s : TokenStream) :
    Alike f (RelocatedRest f) s.statement (s.relocated f).statement := by
  rw [statement.eq_def s]
  split
  · next span text span' rest =>
    rw [relocated, relocated, statement]
    exact alike_enter_bind fun _ => (alike_found _ _).bind fun _ _ _ => alike_pure rfl
  · next span rest hstr =>
    rw [relocated, statement]
    · refine alike_enter_bind fun hrest => (alike_operand 3 rest).bind fun _ _ hab => ?_
      rw [spanHere_relocated hrest]
      exact (alike_found _ _).bind fun _ _ _ => alike_pure hab
    · -- The equation for a number asks that no string follows, which holds on both sides or none.
      intro text span' rest' h
      obtain ⟨_, _, rfl, -⟩ := exists_of_relocated_eq_token h
      exact hstr text _ _ rfl
  · next name span rest =>
    rw [relocated, statement]
    refine alike_enter_bind fun _ => (alike_expect _ _ rest).bind fun value value' hvalue => ?_
    obtain ⟨value', _⟩ := value'
    obtain rfl : value' = value.1.relocated f := hvalue
    exact (alike_operand 3 value.1).bind fun _ _ hab =>
      (alike_found _ _).bind fun _ _ _ => alike_pure hab
  · next hprintString hprint hname =>
    rw [statement]
    · rw [errorHere_relocated]
      exact alike_fail _
    · intro span text span' rest h
      obtain ⟨_, _, rfl, -⟩ := exists_of_relocated_eq_token h
      exact hprint _ _ rfl
    · intro span rest h
      obtain ⟨_, _, rfl, -⟩ := exists_of_relocated_eq_token h
      exact hprint _ _ rfl
    · intro name span rest h
      obtain ⟨_, _, rfl, -⟩ := exists_of_relocated_eq_token h
      exact hname _ _ _ rfl

/-- `afterStatement` reads alike, if the programs of shorter streams do. -/
theorem alike_afterStatement {s : TokenStream}
    (ih : ∀ s' : TokenStream, s'.size < s.size →
      Alike f (fun _ _ => True) s'.program (s'.relocated f).program) :
    Alike f (fun _ _ => True) s.afterStatement (s.relocated f).afterStatement := by
  cases s with
  | ended offset => exact alike_pure trivial
  | broken e => exact alike_fail e
  | token t span rest =>
    cases t with
    | stop => exact alike_enter_bind fun _ => ih rest (by simp)
    | _ => exact alike_fail (errorHere .statementEnd (token _ span rest))

/-- `program` reads alike at other places. -/
theorem alike_program (s : TokenStream) :
    Alike f (fun _ _ => True) s.program (s.relocated f).program := by
  by_cases hended : ∃ offset, s = ended offset
  · obtain ⟨offset, rfl⟩ := hended
    rw [relocated, program, program]
    exact alike_pure trivial
  by_cases hstop : ∃ span rest, s = token .stop span rest
  · obtain ⟨span, rest, rfl⟩ := hstop
    rw [relocated, program, program]
    exact alike_enter_bind fun _ => alike_program rest
  -- Neither at the end nor at a `;`: a statement follows, and then the rest of the program.
  rw [program_eq_statement fun offset h => hended ⟨offset, h⟩, program_eq_statement]
  · refine (alike_statement s).bind fun last last' hlast => ?_
    rw [show last'.1 = last.1.relocated f from hlast]
    have hlt := last.2
    exact alike_afterStatement fun s' hs' => alike_program s'
  · intro offset h
    cases s with
    | ended offset' => exact hended ⟨offset', rfl⟩
    | token | broken => cases h
  · intro span rest h
    obtain ⟨_, _, rfl, -⟩ := exists_of_relocated_eq_token h
    exact hstop ⟨_, _, rfl⟩
  · exact fun span rest h => hstop ⟨span, rest, h⟩
termination_by s.size
decreasing_by
  · subst_vars
    simp
  · omega

end TokenStream

end Straightline
