import Straightline.Proofs.Script.Joining
import Straightline.Proofs.Script.Tiling

/-!
# A single pass

A script can be compiled while it is read: a token is asked for when the one in front of it is used
up, and a step is made as soon as its operands are there. That always ends, it comes to the same as
reading everything first, and no token is asked for twice.

* `singlePass` is such a pass, from call to call of a lexer. Its parts call each other and
  themselves, which need not end, so there is a limit on how deep they are nested.
  `singlePass_mono`: it makes no difference once there is a result.
* `PassState.IsAt` says that a pass stands in front of a token stream, and `PassState.InOrder` what
  calls may have been made at any time.
* `Simulates` says that a pass comes to the same as the steps of a reading, and `Simulates.bind`
  that this carries over to what follows. `operandsAgree`, `simulates_statement` and
  `simulates_program` go through the grammar.
* `single_pass` puts this in terms of sources.
-/

namespace Straightline

/-! ### A pass over a source -/

/-- What a pass stands in front of. -/
inductive Lookahead where
  | token (t : Token) (span : Span)
  | ended (span : Span)

/-- The place of what a pass stands in front of. -/
def Lookahead.span : Lookahead → Span
  | token _ span => span
  | ended span => span

/-- A pass under way. -/
structure PassState where
  /-- The byte that the lexer stands at, behind the token ahead. -/
  position : Nat
  ahead : Lookahead
  /-- What the calls of the lexer found so far. -/
  calls : List NextLexeme
  compilation : Compilation

/-- Parts of a pass. There is no result if they are nested too deep, or if the lexer is called
    inside of a character. -/
abbrev Pass := ExceptT ScriptError (StateT PassState Option)

namespace Pass

/-- Look at what comes next. -/
def ahead : Pass Lookahead := return (← get).ahead

/-- Call the lexer. -/
def advance (source : String) : Pass Unit := fun s =>
  match nextLexeme? source.toList s.position with
  | none => none
  | some (found, position) =>
    let s := { s with position, calls := s.calls ++ [found] }
    match found with
    | .ended span => some (.ok (), { s with ahead := .ended span })
    | .lexeme l =>
      match l.outcome with
      | .ok t => some (.ok (), { s with ahead := .token t l.span })
      | .error fault => some (.error (.malformed (.badLexeme fault l.text l.span)), s)

/-- Add to the compilation. -/
def emit (span : Span) {α : Type} (step : Emit α) : Pass α := fun s =>
  let (outcome, compilation) := Emit.blaming span step s.compilation
  some (outcome, { s with compilation })

/-- Fail in front of something else than there should be. -/
def unexpected (source : String) (expected : Expectation) {α : Type} : Pass α := do
  match (← ahead) with
  | .token t span => throw (.malformed (.unexpectedToken t span expected))
  | .ended _ => throw (.malformed (.unexpectedEnd source.utf8ByteSize expected))

/-- Use up a token that has to come next. -/
def expect (source : String) (t : Token) (expected : Expectation) : Pass Unit := do
  match (← ahead) with
  | .token t' _ => if t' = t then advance source else unexpected source expected
  | .ended _ => unexpected source expected

/-- Parts of a pass call each other, nested to some depth. One that would go deeper has no
    result. -/
def tooDeep {α : Type} : Pass α := fun _ => none

mutual

/-- The value of an operand of a level. -/
def operand (source : String) (depth level : Nat) : Pass Operand :=
  match depth, level with
  | 0, _ => tooDeep
  | depth + 1, 0 => unary source depth
  | depth + 1, k + 1 => do
    let lhs ← operand source depth k
    operators source depth k lhs

/-- The value of operators of a level with their right operands, as long as there are any. -/
def operators (source : String) (depth level : Nat) (lhs : Operand) : Pass Operand :=
  match depth with
  | 0 => tooDeep
  | depth + 1 => do
    match (← ahead) with
    | .token (.op symbol) span =>
      if symbol.level = level then
        advance source
        let rhs ← operand source depth level
        let value ← emit span (Emit.binaryOp lhs rhs symbol.text)
        operators source depth level value
      else return lhs
    | _ => return lhs

/-- The value of an operand without operators other than minus signs in front. -/
def unary (source : String) (depth : Nat) : Pass Operand :=
  match depth with
  | 0 => tooDeep
  | depth + 1 => do
    match (← ahead) with
    | .token (.op .minus) span =>
      advance source
      match (← ahead) with
      | .token (.number value) _ =>
        advance source
        return .double (-value)
      | _ =>
        let value ← unary source depth
        emit span (Emit.apply (.double Double.zero) value (.arithmetic .sub))
    | .token (.number value) _ =>
      advance source
      return .double value
    | .token (.ident name) span =>
      advance source
      emit span (Emit.read name)
    | .token .lparen _ =>
      advance source
      let value ← operand source depth 3
      expect source .rparen .rparen
      return value
    | _ => unexpected source .expression

end

/-- A statement: what is printed, or the value of a variable. -/
def statement (source : String) (depth : Nat) : Pass Unit := do
  match (← ahead) with
  | .token .print _ =>
    advance source
    match (← ahead) with
    | .token (.str text) span =>
      advance source
      let _ ← emit span (Emit.printString text)
    | found =>
      let value ← operand source depth 3
      let _ ← emit found.span (Emit.printNumber value)
  | .token (.ident name) span =>
    advance source
    expect source .assign .assign
    let value ← operand source depth 3
    emit span (Emit.write name value)
  | _ => unexpected source .statement

/-- Statements up to the end. -/
def program (source : String) (depth : Nat) : Pass Unit :=
  match depth with
  | 0 => tooDeep
  | depth + 1 => do
    match (← ahead) with
    | .ended _ => return ()
    | .token .stop _ =>
      advance source
      program source depth
    | _ =>
      statement source depth
      match (← ahead) with
      | .ended _ => return ()
      | .token .stop _ =>
        advance source
        program source depth
      | _ => unexpected source .statementEnd

section

variable {α β : Type} {pass : Pass α} {next : α → Pass β} {s s' : PassState}

/-- `pass >>= next` goes on with the result of `pass`. -/
theorem bind_eq_of_ok {a : α} (h : pass s = some (.ok a, s')) : (pass >>= next) s = next a s' := by
  show (pass s).bind _ = _
  rw [h]
  rfl

/-- `pass >>= next` fails if `pass` does. -/
theorem bind_eq_of_error {e : ScriptError} (h : pass s = some (.error e, s')) :
    (pass >>= next) s = some (.error e, s') := by
  show (pass s).bind _ = _
  rw [h]
  rfl

end

end Pass

/-- A pass over a whole source, which starts with the first token. The parts may be nested to some
    depth. -/
def singlePass (source : String) (depth : Nat) (c : Compilation) :
    Option (Except ScriptError Unit × PassState) :=
  let pass : Pass Unit := do
    Pass.advance source
    Pass.program source depth
  pass { position := 0, ahead := .ended ⟨0, 0⟩, calls := [], compilation := c }

/-! ### Depth -/

namespace Pass

variable {α β : Type} {pass pass' : Pass α} {next next' : α → Pass β}

/-- `pass.Within pass'`: where `pass` has a result, `pass'` has the same. -/
def Within (pass pass' : Pass α) : Prop := ∀ s r, pass s = some r → pass' s = some r

/-- A pass is within itself. -/
theorem Within.refl (pass : Pass α) : pass.Within pass := fun _ _ h => h

/-- `tooDeep` has no result. -/
theorem tooDeep_within (pass : Pass α) : tooDeep.Within pass := by
  intro s r h
  cases h

/-- `Within` goes through `>>=`. -/
theorem Within.bind (h : pass.Within pass') (hnext : ∀ a, (next a).Within (next' a)) :
    (pass >>= next).Within (pass' >>= next') := by
  intro s r hr
  obtain ⟨⟨outcome, s'⟩, hpass, hr⟩ := Option.bind_eq_some_iff.mp hr
  have hpass' := h s _ hpass
  cases outcome with
  | ok a =>
    rw [bind_eq_of_ok hpass']
    exact hnext a s' r hr
  | error e =>
    rw [bind_eq_of_error hpass']
    exact hr

/-- `operand`, `operators` and `unary` have the same results, if any, at a greater depth. -/
theorem operand_within (source : String) (depth : Nat) :
    (∀ k, (operand source depth k).Within (operand source (depth + 1) k)) ∧
      (∀ k lhs, (operators source depth k lhs).Within (operators source (depth + 1) k lhs)) ∧
      (unary source depth).Within (unary source (depth + 1)) := by
  -- All three at once, since they call each other at the depth below.
  induction depth with
  | zero =>
    refine ⟨fun k => ?_, fun k lhs => tooDeep_within _, tooDeep_within _⟩
    rw [operand]
    exact tooDeep_within _
  | succ depth ih =>
    obtain ⟨hoperand, hoperators, hunary⟩ := ih
    refine ⟨fun k => ?_, fun k lhs => ?_, ?_⟩
    · cases k with
      | zero => exact hunary
      | succ k => exact (hoperand k).bind fun lhs => hoperators k lhs
    · rw [operators, operators]
      refine (Within.refl ahead).bind fun found => ?_
      split
      · split
        · refine (Within.refl _).bind fun _ => (hoperand k).bind fun rhs => ?_
          exact (Within.refl _).bind fun value => hoperators k value
        · exact .refl _
      · exact .refl _
    · rw [unary, unary]
      refine (Within.refl ahead).bind fun found => ?_
      split
      · refine (Within.refl _).bind fun _ => (Within.refl ahead).bind fun found => ?_
        split
        · exact .refl _
        · exact hunary.bind fun value => .refl _
      · exact .refl _
      · exact .refl _
      · exact (Within.refl _).bind fun _ => (hoperand 3).bind fun value => .refl _
      · exact .refl _

/-- `statement` has the same results, if any, at a greater depth. -/
theorem statement_within (source : String) (depth : Nat) :
    (statement source depth).Within (statement source (depth + 1)) := by
  obtain ⟨hoperand, -, -⟩ := operand_within source depth
  refine (Within.refl ahead).bind fun found => ?_
  split
  · refine (Within.refl _).bind fun _ => (Within.refl ahead).bind fun found => ?_
    split
    · exact .refl _
    · exact (hoperand 3).bind fun value => .refl _
  · exact (Within.refl _).bind fun _ => (Within.refl _).bind fun _ =>
      (hoperand 3).bind fun value => .refl _
  · exact .refl _

/-- `program` has the same results, if any, at a greater depth. -/
theorem program_within (source : String) (depth : Nat) :
    (program source depth).Within (program source (depth + 1)) := by
  induction depth with
  | zero => exact tooDeep_within _
  | succ depth ih =>
    rw [program, program]
    refine (Within.refl ahead).bind fun found => ?_
    split
    · exact .refl _
    · exact (Within.refl _).bind fun _ => ih
    · refine (statement_within source depth).bind fun _ => (Within.refl ahead).bind fun found => ?_
      split
      · exact .refl _
      · exact (Within.refl _).bind fun _ => ih
      · exact .refl _

end Pass

/-- `singlePass` has the same result at every greater depth. -/
theorem singlePass_mono {source : String} {depth depth' : Nat} {c : Compilation}
    {r : Except ScriptError Unit × PassState} (hle : depth ≤ depth')
    (h : singlePass source depth c = some r) :
    singlePass source depth' c = some r := by
  induction hle with
  | refl => exact h
  | step _ ih => exact ((Pass.Within.refl _).bind fun _ => Pass.program_within source _) _ _ ih

/-! ### The calls of a pass -/

/-- A lexeme that is a token. -/
def NextLexeme.IsToken (found : NextLexeme) : Prop := ∃ l t, found = .lexeme l ∧ l.outcome = .ok t

/-- The place of what a call finds. -/
def NextLexeme.span : NextLexeme → Span
  | lexeme l => l.span
  | ended span => span

/-- What calls find up to the end of a source. -/
def allCalls (source : String) : List NextLexeme :=
  (lexemes source).map .lexeme ++ [.ended ⟨source.utf8ByteSize, 0⟩]

namespace PassState

/-- The calls of a pass are the first ones that can be made, and only the last can have found
    something else than a token. -/
structure InOrder (source : String) (s : PassState) : Prop where
  first : s.calls <+: allCalls source
  isToken : ∀ found ∈ s.calls.dropLast, found.IsToken

/-- Calls found tokens so far, and the lexer stands in front of some lexemes. -/
structure Unread (source : String) (s : PassState) (ls : List Lexeme) : Prop where
  position : ∃ before cs, source.toList = before ++ cs ∧ s.position = byteLength before ∧
    ls = lexemesFrom s.position cs
  calls : ∃ read, s.calls = read.map .lexeme ∧ lexemes source = read ++ ls ∧
    ∀ l ∈ read, ∃ t, l.outcome = .ok t

/-- A pass stands in front of a stream. -/
inductive IsAt (source : String) : TokenStream → PassState → Prop
  | token {t : Token} {span : Span} {ls : List Lexeme} {s : PassState} (hahead : s.ahead =
    .token t span)
    (hunread : s.Unread source ls) :
      IsAt source (.token t span (.ofLexemes source.utf8ByteSize ls)) s
  | ended {s : PassState} (hahead : s.ahead = .ended ⟨source.utf8ByteSize, 0⟩) (hcalls : s.calls =
    allCalls source)
    (htokens : ∀ l ∈ lexemes source, ∃ t, l.outcome = .ok t) :
      IsAt source (.ended source.utf8ByteSize) s

variable {source : String} {s : PassState} {ls : List Lexeme}

/-- With nothing unread, a call finds the end. -/
theorem Unread.call_nil (h : s.Unread source []) :
    ∃ position, nextLexeme? source.toList s.position =
      some (.ended ⟨source.utf8ByteSize, 0⟩, position) := by
  obtain ⟨before, cs, hsource, hposition, hls⟩ := h.position
  rcases hsplit : splitTrivia false cs with ⟨skipped, _ | ⟨c, rest⟩⟩
  · refine ⟨source.utf8ByteSize, ?_⟩
    rw [hposition, hsource, nextLexeme?_of_trivia hsplit, ← hsource, byteLength_toList]
  · rw [lexemesFrom_of_scan hsplit] at hls
    cases hls

/-- With a lexeme unread, a call finds it, and stands in front of the others. -/
theorem Unread.call_cons {l : Lexeme} (h : s.Unread source (l :: ls)) :
    ∃ position, nextLexeme? source.toList s.position = some (.lexeme l, position) ∧
      ∃ before cs, source.toList = before ++ cs ∧ position = byteLength before ∧
        ls = lexemesFrom position cs := by
  obtain ⟨before, cs, hsource, hposition, hls⟩ := h.position
  rcases hsplit : splitTrivia false cs with ⟨skipped, _ | ⟨c, rest⟩⟩
  · rw [lexemesFrom_of_trivia hsplit] at hls
    cases hls
  · -- The call skips and scans what `lexemesFrom` does in its next step.
    rw [lexemesFrom_of_scan hsplit, hposition, ← byteLength_append, ← byteLength_append] at hls
    obtain ⟨rfl, rfl⟩ := List.cons.inj hls
    refine ⟨_, ?_, before ++ skipped ++ (scanToken c rest).text,
      (scanToken c rest).rest, ?_, rfl, rfl⟩
    · rw [hposition, hsource, nextLexeme?_of_scan hsplit]
    · rw [hsource, ← append_scan hsplit]
      simp only [List.append_assoc]

/-- Calls that found tokens, and possibly one more, are in order if they are the first ones. -/
theorem inOrder_of_append {read : List Lexeme} {last : List NextLexeme}
    (hcalls : s.calls = read.map .lexeme ++ last) (hlast : last.length ≤ 1)
    (hfirst : s.calls <+: allCalls source) (htokens : ∀ l ∈ read, ∃ t, l.outcome = .ok t) :
    s.InOrder source := by
  refine ⟨hfirst, fun found hfound => ?_⟩
  have hread : found ∈ read.map .lexeme := by
    rw [hcalls] at hfound
    -- At most the last call found something that was not read.
    rcases last with _ | ⟨found', _ | ⟨found'', last⟩⟩
    · rw [List.append_nil] at hfound
      exact List.dropLast_subset _ hfound
    · rwa [List.dropLast_concat] at hfound
    · simp at hlast
  obtain ⟨l, hl, rfl⟩ := List.mem_map.mp hread
  obtain ⟨t, ht⟩ := htokens l hl
  exact ⟨l, t, rfl, ht⟩

/-- Where a pass stands in front of a stream, its calls are `InOrder`. -/
theorem IsAt.inOrder {stream : TokenStream} (h : s.IsAt source stream) : s.InOrder source := by
  cases h with
  | token hahead hunread =>
    obtain ⟨read, hcalls, hall, htokens⟩ := hunread.calls
    refine inOrder_of_append (hcalls.trans (List.append_nil _).symm) (by simp) ?_ htokens
    rw [hcalls, allCalls, hall, List.map_append, List.append_assoc]
    exact List.prefix_append _ _
  | ended hahead hcalls htokens =>
    exact inOrder_of_append hcalls (by simp) (hcalls ▸ List.prefix_rfl) htokens

/-- In front of a token, this token is ahead. -/
theorem IsAt.ahead_eq {t : Token} {span : Span} {rest : TokenStream}
    (h : s.IsAt source (.token t span rest)) :
    s.ahead = .token t span := by
  cases h with
  | token hahead hunread => exact hahead

/-- Where a token is ahead, the stream starts with it. -/
theorem IsAt.exists_of_ahead {stream : TokenStream} {t : Token} {span : Span}
    (h : s.IsAt source stream) (hahead : s.ahead = .token t span) :
    ∃ rest, stream = .token t span rest := by
  cases h with
  | token hahead' hunread =>
    cases hahead'.symm.trans hahead
    exact ⟨_, rfl⟩
  | ended hahead' hcalls htokens => cases hahead'.symm.trans hahead

/-- A token that the stream does not start with is not ahead. -/
theorem IsAt.ahead_ne {stream : TokenStream} {t : Token} {span : Span} (h : s.IsAt source stream)
    (hne : ∀ rest, stream ≠ .token t span rest) : s.ahead ≠ .token t span := by
  intro hahead
  obtain ⟨rest, hrest⟩ := h.exists_of_ahead hahead
  exact hne rest hrest

/-- What is ahead is at the place of the stream. -/
theorem IsAt.span_eq {stream : TokenStream} (h : s.IsAt source stream) :
    s.ahead.span = stream.spanHere := by
  cases h with
  | token hahead hunread =>
    rw [hahead]
    rfl
  | ended hahead hcalls htokens =>
    rw [hahead]
    rfl

/-- The stream does not start with a token that is not ahead. -/
theorem IsAt.ne_token {stream : TokenStream} {t : Token} (h : s.IsAt source stream)
    (hahead : ∀ span, s.ahead ≠ .token t span) (span : Span) (rest : TokenStream) :
    stream ≠ .token t span rest := by
  rintro rfl
  exact hahead span h.ahead_eq

/-- The stream is not at its end if the end is not ahead. -/
theorem IsAt.ne_ended {stream : TokenStream} (h : s.IsAt source stream)
    (hahead : ∀ span, s.ahead ≠ .ended span) (offset : Nat) : stream ≠ .ended offset := by
  rintro rfl
  cases h with
  | ended hended hcalls htokens => exact hahead _ hended

/-- Where the end is ahead, the stream is at its end. -/
theorem IsAt.eq_of_ahead {stream : TokenStream} {span : Span} (h : s.IsAt source stream)
    (hahead : s.ahead = .ended span) : stream = .ended source.utf8ByteSize := by
  cases h with
  | token hahead' hunread => cases hahead'.symm.trans hahead
  | ended hahead' hcalls htokens => rfl

/-- `IsAt` does not depend on what was emitted. -/
theorem IsAt.withCompilation {stream : TokenStream} (h : s.IsAt source stream) (c : Compilation) :
    IsAt source stream { s with compilation := c } := by
  cases h with
  | token hahead hunread => exact .token hahead ⟨hunread.position, hunread.calls⟩
  | ended hahead hcalls htokens => exact .ended hahead hcalls htokens

end PassState

/-! ### Readings and passes -/

namespace Parsed

variable {α β : Type}

/-- `p.run stack`: make the steps of a reading, and give its result. -/
def run (p : Parsed α) (stack : List Operand) : Compile (α × List Operand) := do
  let stack ← Step.emitAll p.steps stack
  match p.outcome with
  | .ok a => return (a, stack)
  | .error e => throw (.malformed e)

/-- `run` goes through `>>=`. -/
theorem run_bind (p : Parsed α) (next : α → Parsed β) (stack : List Operand) :
    (p >>= next).run stack = p.run stack >>= fun r => (next r.1).run r.2 := by
  rw [bind_eq_andThen]
  unfold run
  cases ho : p.outcome with
  | error e =>
    rw [andThen_of_error next ho, bind_assoc]
    rfl
  | ok a =>
    rw [andThen_of_ok next ho, Step.emitAll_append, bind_assoc, bind_assoc]
    rfl

/-- `Parsed.compile` is `run` on the empty stack. -/
theorem compile_eq_run (p : Parsed Unit) : p.compile = p.run [] >>= fun _ => pure () := by
  unfold compile run
  rw [bind_assoc]
  refine congrArg (Step.emitAll p.steps [] >>= ·) (funext fun stack => ?_)
  cases p.outcome <;> rfl

end Parsed

/-- `SameResult source related r r'`: a reading and a pass come to the same. Both fail with one
    error, or they have results that belong together; and the compilations are equal. -/
inductive SameResult (source : String) {α β : Type}
    (related : α → List Operand → β → PassState → Prop) :
    Except ScriptError (α × List Operand) × Compilation →
      Option (Except ScriptError β × PassState) → Prop
  | ok {a : α} {stack : List Operand} {b : β} {s : PassState} (h : related a stack b s) :
    SameResult source related (.ok (a, stack), s.compilation) (some (.ok b, s))
  | error {e : ScriptError} {s : PassState} (h : s.InOrder source) :
    SameResult source related (.error e, s.compilation) (some (.error e, s))

/-- `Simulates source pass s p stack related`: the pass comes to the same as the reading, which
    starts with some values on its stack. -/
def Simulates (source : String) {α β : Type} (pass : Pass β) (s : PassState) (p : Parsed α)
    (stack : List Operand) (related : α → List Operand → β → PassState → Prop) : Prop :=
  SameResult source related (p.run stack s.compilation) (pass s)

namespace Simulates

variable {source : String} {α β α' β' : Type} {pass : Pass β} {s : PassState} {p : Parsed α}
  {stack : List Operand}
  {related : α → List Operand → β → PassState → Prop} {related' : α' → List Operand → β' →
    PassState → Prop}

/-- `pure` simulates `pure` on related results. -/
theorem of_pure {a : α} {b : β} (h : related a stack b s) :
    Simulates source (pure b) s (pure a) stack related := .ok h

/-- `Simulates` goes through `>>=`. -/
theorem bind {next : α → Parsed α'} {pass' : β → Pass β'}
    (h : Simulates source pass s p stack related)
    (hnext : ∀ a stack b s, related a stack b s →
      Simulates source (pass' b) s (next a) stack related') :
    Simulates source (pass >>= pass') s (p >>= next) stack related' := by
  unfold Simulates at h ⊢
  rw [Parsed.run_bind]
  generalize hread : p.run stack s.compilation = read at h
  generalize hpassed : pass s = passed at h
  cases h with
  | ok h =>
    rw [bind_of_ok hread, Pass.bind_eq_of_ok hpassed]
    exact hnext _ _ _ _ h
  | error h =>
    rw [bind_of_error hread, Pass.bind_eq_of_error hpassed]
    exact .error h

/-- `Simulates` stays if the result of the reading is put in another form. -/
theorem map_read {f : α → α'} {related' : α' → List Operand → β → PassState → Prop}
    (h : Simulates source pass s p stack fun a => related' (f a)) :
    Simulates source pass s (p >>= fun a => pure (f a)) stack related' := by
  have hbind : Simulates source (pass >>= pure) s (p >>= fun a => pure (f a)) stack related' :=
    h.bind fun _ _ _ _ hab => of_pure hab
  rwa [bind_pure] at hbind

/-- `ahead` gives what the pass stands in front of. -/
theorem of_ahead {next : Lookahead → Pass β} {found : Lookahead} (hfound : s.ahead = found)
    (h : Simulates source (next found) s p stack related) :
    Simulates source (Pass.ahead >>= next) s p stack related := by
  subst hfound
  exact h

end Simulates

/-! ### Through the grammar -/

open TokenStream

section

variable {source : String}

/-- `ComesTo source values rest stack b s`: the pass stands in front of `rest`, and the stack has
    the values that belong to the result `b`. -/
def ComesTo (source : String) {β : Type} (values : β → List Operand) (rest : TokenStream)
    (stack : List Operand) (b : β) (s : PassState) : Prop :=
  stack = values b ∧ s.IsAt source rest

/-- Results that come to the values of `b` in front of `rest`. -/
theorem SameResult.of_isAt {α β : Type} {a : α} {b : β} {values : β → List Operand}
    {rest : TokenStream} {s : PassState} (h : s.IsAt source rest) :
    SameResult source (fun _ : α => ComesTo source values rest) (.ok (a, values b), s.compilation)
    (some (.ok b, s)) :=
  .ok ⟨rfl, h⟩

/-- What follows starts with the values and in front of the stream that were reached. -/
theorem Simulates.bind_comesTo {α β α' β' : Type} {pass : Pass β} {pass' : β → Pass β'}
    {s : PassState} {p : Parsed α}
    {next : α → Parsed α'} {stack : List Operand} {values : β → List Operand}
    {rest : α → TokenStream} {related : α' → List Operand → β' → PassState → Prop}
    (h : Simulates source pass s p stack fun a => ComesTo source values (rest a))
    (hnext : ∀ a b s, s.IsAt source (rest a) →
      Simulates source (pass' b) s (next a) (values b) related) :
    Simulates source (pass >>= pass') s (p >>= next) stack related := by
  refine h.bind fun a stack b s hab => ?_
  obtain ⟨rfl, hat⟩ := hab
  exact hnext a b s hat

/-- `advance` simulates `enter`: to call the lexer is to move on in the stream. -/
theorem simulates_advance {s : PassState} {ls : List Lexeme} (h : s.Unread source ls)
    (stack : List Operand) :
    Simulates source (Pass.advance source) s (ofLexemes source.utf8ByteSize ls).enter stack
      (fun _ => ComesTo source (fun _ => stack) (ofLexemes source.utf8ByteSize ls)) := by
  obtain ⟨read, hcalls, hall, htokens⟩ := h.calls
  unfold Simulates Pass.advance
  cases ls with
  | nil =>
    obtain ⟨position, hcall⟩ := h.call_nil
    rw [List.append_nil] at hall
    have hat : PassState.IsAt source (.ended source.utf8ByteSize)
        ⟨position, .ended ⟨source.utf8ByteSize, 0⟩, s.calls ++ [.ended ⟨source.utf8ByteSize, 0⟩],
          s.compilation⟩ :=
      .ended rfl (by rw [allCalls, hcalls, hall]) (by rwa [hall])
    rw [hcall]
    exact .of_isAt hat
  | cons l ls =>
    obtain ⟨position, hcall, hrest⟩ := h.call_cons
    have hcalls' : s.calls ++ [.lexeme l] = (read ++ [l]).map .lexeme := by simp [hcalls]
    rw [hcall, ofLexemes]
    dsimp only
    cases hl : l.outcome with
    | ok t =>
      have hat : PassState.IsAt source (.token t l.span (ofLexemes source.utf8ByteSize ls))
          ⟨position, .token t l.span, s.calls ++ [.lexeme l], s.compilation⟩ := by
        refine .token rfl ⟨hrest, read ++ [l], hcalls', by simp [hall], fun l' hl' => ?_⟩
        rcases List.mem_append.mp hl' with hl' | hl'
        · exact htokens l' hl'
        · exact ⟨t, List.mem_singleton.mp hl' ▸ hl⟩
      exact .of_isAt hat
    -- The call that finds text that is no token is the last one.
    | error fault =>
      have horder : PassState.InOrder source ⟨position, s.ahead, s.calls ++ [.lexeme l],
          s.compilation⟩ := by
        refine PassState.inOrder_of_append (congrArg (· ++ _) hcalls) (by simp) ?_ htokens
        show s.calls ++ [.lexeme l] <+: _
        simp [allCalls, hcalls, hall]
      exact .error horder

variable {stream : TokenStream} {s : PassState} (stack : List Operand)

/-- `advance` behind a token, and what follows it. -/
theorem simulates_enter_bind {α β : Type} {t : Token} {span : Span} {rest : TokenStream}
    {next : Unit → Parsed α} {pass : Unit → Pass β}
    {related : α → List Operand → β → PassState → Prop} (h : s.IsAt source (token t span rest))
    (hnext : ∀ s', s'.IsAt source rest → Simulates source (pass ()) s' (next ()) stack related) :
    Simulates source (Pass.advance source >>= pass) s (rest.enter >>= next) stack related := by
  cases h with
  | token hahead hunread =>
    exact (simulates_advance hunread stack).bind_comesTo fun _ _ s' hat => hnext s' hat

/-- `emit` simulates `found`, if the step makes what is emitted. -/
theorem simulates_found {β : Type} {step : Step} {action : Emit β} {values : β → List Operand}
    (hstep : step.emit stack = action >>= fun b => pure (values b)) (span : Span)
    (h : s.IsAt source stream) :
    Simulates source (Pass.emit span action) s (.found step span) stack
      (fun _ => ComesTo source values stream) := by
  unfold Simulates Pass.emit
  -- The same action runs on both sides, and its error gets the same span.
  rcases hact : action s.compilation with ⟨e | b, c⟩
  · have hemit : step.emit stack s.compilation = (.error e, c) := by rw [hstep, bind_of_error hact]
    have hblame : Emit.blaming span (step.emit stack) s.compilation =
        (.error (.emission e span), c) := by
      rw [Emit.blaming, hemit]
    have hread : (Parsed.found step span).run stack s.compilation =
        (.error (.emission e span), c) :=
      bind_of_error (bind_of_error hblame)
    rw [hread, Emit.blaming, hact]
    exact SameResult.error (h.withCompilation c).inOrder
  · have hemit : step.emit stack s.compilation = (.ok (values b), c) := by
      rw [hstep, bind_of_ok hact]; rfl
    have hblame : Emit.blaming span (step.emit stack) s.compilation = (.ok (values b), c) := by
      rw [Emit.blaming, hemit]
    have hread : (Parsed.found step span).run stack s.compilation = (.ok ((), values b), c) :=
      bind_of_ok (bind_of_ok hblame)
    rw [hread, Emit.blaming, hact]
    exact .of_isAt (h.withCompilation c)

/-- A number is the result, and needs no step. -/
theorem simulates_push (value : Double) (span : Span) (h : s.IsAt source stream) :
    Simulates source (pure (.double value)) s (.found (.push value) span) stack
      (fun _ => ComesTo source (· :: stack) stream) := by
  show Simulates source (Pass.emit span (pure (Operand.double value))) s _ _ _
  exact simulates_found stack rfl span h

/-- `unexpected` simulates `fail`. -/
theorem simulates_unexpected {α β : Type} (expected : Expectation)
    {related : α → List Operand → β → PassState → Prop} (h : s.IsAt source stream) :
    Simulates source (Pass.unexpected source expected) s
      (.fail (stream.errorHere expected)) stack related := by
  have horder := h.inOrder
  cases h with
  | token hahead hunread => exact .of_ahead hahead (SameResult.error horder)
  | ended hahead hcalls htokens => exact .of_ahead hahead (SameResult.error horder)

/-- `expect` simulates `expect`. -/
theorem simulates_expect (t : Token) (expected : Expectation) (h : s.IsAt source stream) :
    Simulates source (Pass.expect source t expected) s (stream.expect t expected) stack
      (fun rest => ComesTo source (fun _ => stack) rest.1) := by
  cases h with
  | token hahead hunread =>
    refine .of_ahead hahead ?_
    rw [expect]
    dsimp only
    split
    · exact .map_read (simulates_advance hunread stack)
    · exact simulates_unexpected stack expected (.token hahead hunread)
  | ended hahead hcalls htokens =>
    exact .of_ahead hahead (simulates_unexpected stack expected (.ended hahead hcalls htokens))

/-- `OperandsAgree source stream`: `operand` of the pass simulates `stream.operand`, if it may be
    nested as deep as the tokens and the level allow. -/
def OperandsAgree (source : String) (stream : TokenStream) : Prop :=
  ∀ (k depth : Nat) (s : PassState) (stack : List Operand), stream.size * 8 + k + 1 < depth →
    s.IsAt source stream →
    Simulates source (Pass.operand source depth k) s (stream.operand k) stack
      (fun rest => ComesTo source (· :: stack) rest.1)

/-- `unary` simulates `stream.unary`, if the operands of shorter streams agree. -/
theorem simulates_unary
    (ih : ∀ stream' : TokenStream, stream'.size < stream.size → OperandsAgree source stream')
    {depth : Nat} (hdepth : stream.size * 8 < depth) (h : s.IsAt source stream) :
    Simulates source (Pass.unary source depth) s stream.unary stack
      (fun rest => ComesTo source (· :: stack) rest.1) := by
  obtain ⟨depth, rfl⟩ := Nat.exists_eq_add_one.mpr (Nat.zero_lt_of_lt hdepth)
  rw [TokenStream.unary.eq_def]
  split
  · next span value span' rest =>
    rw [Pass.unary]
    refine .of_ahead h.ahead_eq ?_
    -- The number behind the sign is ahead after one call, and is used up by another.
    show Simulates _ _ _ ((token (.number value) span' rest).enter >>=
        fun _ => rest.enter >>= fun _ =>
      Parsed.found (.push (-value)) span' >>= fun _ => pure _) _ _
    refine simulates_enter_bind stack h fun s h => .of_ahead h.ahead_eq ?_
    refine simulates_enter_bind stack h fun s h => ?_
    exact .map_read (simulates_push stack (-value) span' h)
  · next span rest hnumber =>
    rw [Pass.unary]
    refine .of_ahead h.ahead_eq ?_
    refine simulates_enter_bind stack h fun s h => .of_ahead rfl ?_
    rw [size_token] at hdepth
    have hunary := ih rest (by simp) 0 (depth + 1) s stack (by omega) h
    rw [operand, Pass.operand] at hunary
    split
    · next hahead => exact absurd hahead (h.ahead_ne (hnumber _ _))
    · refine hunary.bind_comesTo fun last value s h => ?_
      exact .map_read (simulates_found _ rfl span h)
  · next value span rest =>
    rw [Pass.unary]
    refine .of_ahead h.ahead_eq ?_
    refine simulates_enter_bind stack h fun s h => ?_
    exact .map_read (simulates_push stack value span h)
  · next name span rest =>
    rw [Pass.unary]
    refine .of_ahead h.ahead_eq ?_
    refine simulates_enter_bind stack h fun s h => ?_
    exact .map_read (simulates_found stack rfl span h)
  · next span rest =>
    rw [Pass.unary]
    refine .of_ahead h.ahead_eq ?_
    refine simulates_enter_bind stack h fun s h => ?_
    rw [size_token] at hdepth
    refine (ih rest (by simp) 3 depth s stack (by omega) h).bind_comesTo fun inner value s h => ?_
    refine (simulates_expect _ .rparen .rparen h).bind_comesTo fun last _ s h => ?_
    exact .of_pure ⟨rfl, h⟩
  · next hminus hnegate hnumber hname hparen =>
    rw [Pass.unary]
    refine .of_ahead rfl ?_
    split
    · next hahead => exact absurd hahead (h.ahead_ne (hnegate _))
    · next hahead => exact absurd hahead (h.ahead_ne (hnumber _ _))
    · next hahead => exact absurd hahead (h.ahead_ne (hname _ _))
    · next hahead => exact absurd hahead (h.ahead_ne (hparen _))
    · exact simulates_unexpected stack .expression h

/-- `operators` simulates `stream.operators`, if the operands of shorter streams agree. -/
theorem simulates_operators {stream : TokenStream} {s : PassState} {k depth : Nat}
    (stack : List Operand) (lhs : Operand)
    (ih : ∀ stream' : TokenStream, stream'.size < stream.size → OperandsAgree source stream')
    (hdepth : stream.size * 8 + k + 1 < depth) (h : s.IsAt source stream) :
    Simulates source (Pass.operators source depth k lhs) s (stream.operators k) (lhs :: stack)
      (fun rest => ComesTo source (· :: stack) rest.1) := by
  obtain ⟨depth, rfl⟩ := Nat.exists_eq_add_one.mpr (Nat.zero_lt_of_lt hdepth)
  rw [Pass.operators]
  rcases stream.noOperator_or k with hop | ⟨symbol, span, next, rfl, rfl⟩
  · have hread : stream.operators k = pure ⟨stream, Nat.le_refl _⟩ := by
      rw [operators.eq_def]
      split
      · next symbol span rest => rw [if_neg (hop symbol span rest rfl)]
      · rfl
    rw [hread]
    refine .of_ahead rfl ?_
    split
    · next symbol span hahead =>
      obtain ⟨rest, rfl⟩ := h.exists_of_ahead hahead
      rw [if_neg (hop symbol span rest rfl)]
      exact .of_pure ⟨rfl, h⟩
    · exact .of_pure ⟨rfl, h⟩
  · refine .of_ahead h.ahead_eq ?_
    rw [operators, if_pos rfl]
    dsimp only
    rw [if_pos rfl]
    refine simulates_enter_bind _ h fun s h => ?_
    rw [size_token] at hdepth
    refine (ih next (by simp) _ depth s _ (by omega) h).bind_comesTo fun mid rhs s h => ?_
    refine (simulates_found _ rfl span h).bind_comesTo fun _ value s h => ?_
    -- What was computed so far is the left operand of what follows.
    have hlt := mid.2
    have hmore := simulates_operators (k := symbol.level) stack value
      (fun stream' hstream' => ih stream' (by rw [size_token]; omega)) (show _ < depth by omega) h
    exact .map_read hmore
termination_by stream.size
decreasing_by
  subst_vars
  rw [size_token]
  omega

/-- `OperandsAgree` for every stream. -/
theorem operandsAgree (source : String) (stream : TokenStream) : OperandsAgree source stream := by
  induction hn : stream.size using Nat.strongRecOn generalizing stream with
  | ind n ih =>
    have ih' : ∀ stream' : TokenStream, stream'.size < stream.size → OperandsAgree source stream' :=
      fun stream' hlt => ih stream'.size (hn ▸ hlt) stream' rfl
    -- A level above calls the one below without using up a token, so there the induction is on the
    -- level.
    intro k
    induction k with
    | zero =>
      intro depth s stack hdepth h
      obtain ⟨depth, rfl⟩ := Nat.exists_eq_add_one.mpr (Nat.zero_lt_of_lt hdepth)
      rw [operand, Pass.operand]
      exact simulates_unary stack ih' (by omega) h
    | succ k ihk =>
      intro depth s stack hdepth h
      obtain ⟨depth, rfl⟩ := Nat.exists_eq_add_one.mpr (Nat.zero_lt_of_lt hdepth)
      rw [operand, Pass.operand]
      refine (ihk depth s stack (by omega) h).bind_comesTo fun first lhs s h => ?_
      have hlt := first.2
      have hmore :=
        simulates_operators (k := k) stack lhs (fun stream' hstream' => ih' stream' (by omega))
        (show _ < depth by omega) h
      exact .map_read hmore

/-- `statement` simulates `stream.statement`. -/
theorem simulates_statement {depth : Nat} (hdepth : stream.size * 8 ≤ depth)
    (h : s.IsAt source stream) :
    Simulates source (Pass.statement source depth) s stream.statement stack
      (fun rest => ComesTo source (fun _ => stack) rest.1) := by
  rw [statement.eq_def]
  split
  · next span text span' rest =>
    refine .of_ahead h.ahead_eq ?_
    show Simulates _ _ _ ((token (.str text) span' rest).enter >>= fun _ => rest.enter >>= fun _ =>
      Parsed.found (.printString text) span' >>= fun _ => pure _) _ _
    refine simulates_enter_bind stack h fun s h => .of_ahead h.ahead_eq ?_
    refine simulates_enter_bind stack h fun s h => ?_
    refine (simulates_found _ rfl span' h).bind_comesTo fun _ _ s h => ?_
    exact .of_pure ⟨rfl, h⟩
  · next span rest htext =>
    refine .of_ahead h.ahead_eq ?_
    refine simulates_enter_bind stack h fun s h => .of_ahead rfl ?_
    split
    · -- The pass looks ahead once more for a string; the stream has none there.
      next hahead => exact absurd hahead (h.ahead_ne (htext _ _))
    · rw [size_token] at hdepth
      refine (operandsAgree source rest 3 depth s stack (by omega) h).bind_comesTo
        fun last value s' h' => ?_
      rw [h.span_eq]
      refine (simulates_found _ rfl _ h').bind_comesTo fun _ _ s h => ?_
      exact .of_pure ⟨rfl, h⟩
  · next name span rest =>
    refine .of_ahead h.ahead_eq ?_
    refine simulates_enter_bind stack h fun s h => ?_
    refine (simulates_expect stack .assign .assign h).bind_comesTo fun value _ s h => ?_
    have hlt := value.2
    rw [size_token] at hdepth
    refine (operandsAgree source value.1 3 depth s _ (by omega) h).bind_comesTo fun last x s h => ?_
    exact .map_read (simulates_found _ rfl span h)
  · next hstring hprint hname =>
    refine .of_ahead rfl ?_
    split
    · next hahead => exact absurd hahead (h.ahead_ne (hprint _))
    · next hahead => exact absurd hahead (h.ahead_ne (hname _ _))
    · exact simulates_unexpected stack .statement h

/-- `program` simulates `stream.program`, and ends at the end of the source. -/
theorem simulates_program {stream : TokenStream} {s : PassState} {depth : Nat}
    (stack : List Operand) (hdepth : stream.size * 8 < depth) (h : s.IsAt source stream) :
    Simulates source (Pass.program source depth) s stream.program stack
      (fun _ => ComesTo source (fun _ => stack) (.ended source.utf8ByteSize)) := by
  obtain ⟨depth, rfl⟩ := Nat.exists_eq_add_one.mpr (Nat.zero_lt_of_lt hdepth)
  rw [Pass.program]
  refine .of_ahead rfl ?_
  split
  · next hahead =>
    obtain rfl := h.eq_of_ahead hahead
    rw [program]
    exact .of_pure ⟨rfl, h⟩
  · next hahead =>
    obtain ⟨rest, rfl⟩ := h.exists_of_ahead hahead
    rw [program]
    rw [size_token] at hdepth
    exact simulates_enter_bind stack h fun s h => simulates_program stack (by omega) h
  · next hended hstop =>
    -- Eight units of depth for each token are enough for a statement and for what follows it.
    rw [program_eq_statement (h.ne_ended hended) (h.ne_token hstop)]
    refine (simulates_statement stack (by omega) h).bind_comesTo fun last _ s h => ?_
    obtain ⟨last, hlt⟩ := last
    refine .of_ahead rfl ?_
    split
    · next hahead =>
      obtain rfl := h.eq_of_ahead hahead
      exact .of_pure ⟨rfl, h⟩
    · next hahead =>
      obtain ⟨rest, rfl⟩ := h.exists_of_ahead hahead
      rw [size_token] at hlt
      exact simulates_enter_bind _ h fun s h => simulates_program _ (by omega) h
    · next hended hstop =>
      have hfail : last.afterStatement = .fail (last.errorHere .statementEnd) := by
        unfold afterStatement
        split
        · exact absurd rfl (h.ne_ended hended _)
        · exact absurd rfl (h.ne_token hstop _ _)
        · rfl
      show Simulates _ _ _ last.afterStatement _ _
      rw [hfail]
      exact simulates_unexpected _ .statementEnd h
termination_by stream.size
decreasing_by
  · subst_vars
    simp
  · rw [size_token] at hlt
    omega

end

/-! ### Whole sources -/

/-- Fewer calls find what comes first. -/
theorem nextLexemes?_of_append {source : List Char} {found later : List NextLexeme}
    {position n : Nat}
    (h : nextLexemes? source (found.length + n) position = some (found ++ later)) :
    nextLexemes? source found.length position = some found := by
  induction found generalizing position with
  | nil => rfl
  | cons first found ih =>
    rw [List.length_cons, Nat.add_right_comm, nextLexemes?] at h
    obtain ⟨⟨first', position'⟩, hcall, h⟩ := Option.bind_eq_some_iff.mp h
    obtain ⟨others, hothers, h⟩ := Option.bind_eq_some_iff.mp h
    obtain ⟨rfl, rfl⟩ := List.cons.inj (Option.some.inj h)
    exact nextLexemes?_succ hcall (ih hothers)

/-- `allCalls` are what calls in a row find, from the start of the source. -/
theorem nextLexemes?_allCalls (source : String) :
    nextLexemes? source.toList (allCalls source).length 0 = some (allCalls source) := by
  have hcalls := nextLexemes?_append [] source.toList 1
  rw [List.nil_append, byteLength_toList] at hcalls
  simpa [allCalls, lexemes] using hcalls

/-- No two calls up to the end find something at the same place. -/
theorem allCalls_pairwise (source : String) :
    (allCalls source).Pairwise fun found later => found.span.start < later.span.start := by
  have htiles : Tiles 0 source.toList (lexemes source) := tiles_lexemesFrom 0 source.toList
  -- A lexeme is not empty and ends within the source, where the last call stands.
  have hplace : ∀ l ∈ lexemes source, l.span.start < l.span.stop ∧
      l.span.stop ≤ source.utf8ByteSize := by
    intro l hl
    obtain ⟨htext, before, after, happend, hoffset⟩ := htiles.exists_append hl
    have hpos := byteLength_pos htext
    have hlength := byteLength_toList source
    rw [happend, byteLength_append, byteLength_append] at hlength
    simp only [Span.stop, Lexeme.span]
    omega
  refine List.pairwise_append.mpr ⟨List.pairwise_map.mpr ?_, List.pairwise_singleton _ _, ?_⟩
  · exact htiles.pairwise.imp_of_mem fun hl _ hle => Nat.lt_of_lt_of_le (hplace _ hl).1 hle
  · intro found hfound later hlater
    obtain ⟨l, hl, rfl⟩ := List.mem_map.mp hfound
    obtain rfl := List.mem_singleton.mp hlater
    exact Nat.lt_of_lt_of_le (hplace l hl).1 (hplace l hl).2

/-- `program` may look for text that is no token first. -/
theorem TokenStream.program_eq_enter_bind (stream : TokenStream) :
    stream.program = stream.enter >>= fun _ => stream.program := by
  cases stream with
  | token | ended => rfl
  | broken e =>
    have hread : (broken e).statement = .fail e := rfl
    rw [program_eq_statement (by simp) (by simp), hread]
    rfl

/-- A stream has no more tokens than there are lexemes. -/
theorem TokenStream.size_ofLexemes_le (length : Nat) (ls : List Lexeme) :
    (ofLexemes length ls).size ≤ ls.length := by
  induction ls with
  | nil => exact Nat.le_refl 0
  | cons l ls ih =>
    rw [ofLexemes]
    cases l.outcome with
    | ok t => exact Nat.succ_le_succ ih
    | error fault => exact Nat.zero_le _

/-- `singlePass` comes to the same as `parse` whose steps are made. -/
theorem singlePass_sameResult (source : String) (c : Compilation) {depth : Nat}
    (hdepth : (lexemes source).length * 8 < depth) :
    SameResult source (fun _ => ComesTo source (fun _ => []) (.ended source.utf8ByteSize))
      ((parse source).run [] c) (singlePass source depth c) := by
  have hsize : (ofSource source).size ≤ _ := size_ofLexemes_le source.utf8ByteSize (lexemes source)
  have hunread : PassState.Unread source ⟨0, .ended ⟨0, 0⟩, [], c⟩ (lexemes source) :=
    ⟨⟨[], source.toList, rfl, rfl, rfl⟩, [], rfl, rfl, by simp⟩
  rw [parse, program_eq_enter_bind]
  show Simulates source (Pass.advance source >>= fun _ => Pass.program source depth) ⟨0,
    .ended ⟨0, 0⟩, [], c⟩ _ [] _
  exact (simulates_advance hunread []).bind_comesTo fun _ _ s h => simulates_program [] (by omega) h

/-- Compiling is a single pass that always ends: its parts need not be nested deeper than the tokens
    of the source allow. The calls of the lexer that it makes are in a row, so that none is made
    twice for the same token, and after the end or something that is no token there are no more. If
    there is no error, all tokens were read, and the end. -/
theorem single_pass (source : String) (c : Compilation) :
    ∃ outcome s, (∀ depth, (lexemes source).length * 8 < depth →
      singlePass source depth c = some (outcome, s)) ∧
      compileInto source c = (outcome, s.compilation) ∧
      nextLexemes? source.toList s.calls.length 0 = some s.calls ∧
      s.calls.Pairwise (fun found later => found.span.start < later.span.start) ∧
      (∀ found ∈ s.calls.dropLast, ∃ l t, found = .lexeme l ∧ l.outcome = .ok t) ∧
      (outcome = .ok () →
        s.calls = (lexemes source).map .lexeme ++ [.ended ⟨source.utf8ByteSize, 0⟩]) := by
  have hinto : compileInto source = (parse source).run [] >>= fun _ => pure () :=
    Parsed.compile_eq_run _
  have hsame := singlePass_sameResult source c (Nat.lt_succ_self _)
  obtain ⟨outcome, s, hpass, hcompile, horder, hok⟩ : ∃ outcome s,
      singlePass source ((lexemes source).length * 8 + 1) c = some (outcome, s) ∧
      compileInto source c = (outcome, s.compilation) ∧ s.InOrder source ∧
      (outcome = .ok () → s.calls = allCalls source) := by
    rw [hinto]
    generalize hread : (parse source).run [] c = read at hsame
    generalize singlePass source _ c = passed at hsame
    cases hsame with
    | ok h =>
      obtain ⟨-, h⟩ := h
      refine ⟨_, _, rfl, bind_of_ok hread, h.inOrder, fun _ => ?_⟩
      cases h with
      | ended hahead hcalls htokens => exact hcalls
    | error h => exact ⟨_, _, rfl, bind_of_error hread, h, fun hok => by cases hok⟩
  -- The calls made are the first ones of all calls, from which they have their order.
  obtain ⟨later, hlater⟩ := horder.first
  have hcalls := nextLexemes?_allCalls source
  have hpairwise := allCalls_pairwise source
  rw [← hlater] at hcalls hpairwise
  rw [List.length_append] at hcalls
  exact ⟨outcome, s, fun depth hdepth => singlePass_mono hdepth hpass, hcompile,
    nextLexemes?_of_append hcalls, (List.pairwise_append.mp hpairwise).1, horder.isToken, hok⟩

/-- A minus sign in front of parentheses is used up before they are, and a comment is no token. -/
theorem single_pass_sample :
    ∃ s, singlePass "x = -(2) # é\nprint x" 73 { options := {} } = some (.ok (), s) ∧
      s.calls.length = 10 ∧
      ∃ l t, s.calls.head? = some (.lexeme l) ∧ l.outcome = .ok t := by
  have hok : (compileInto "x = -(2) # é\nprint x" { options := {} }).1 = .ok () := by decide +kernel
  have hlength : (lexemes "x = -(2) # é\nprint x").length = 9 := by decide +kernel
  obtain ⟨outcome, s, hpass, hinto, -, -, htokens, hcalls⟩ :=
    single_pass "x = -(2) # é\nprint x" { options := {} }
  rw [hinto] at hok
  obtain rfl : outcome = .ok () := hok
  have hten : s.calls.length = 10 := by simp [hcalls rfl, hlength]
  refine ⟨s, hpass 73 (by simp [hlength]), hten, ?_⟩
  -- The first call is not the last one, so it gave a token.
  rcases hs : s.calls with _ | ⟨first, _ | ⟨second, rest⟩⟩
  · simp [hs] at hten
  · simp [hs] at hten
  · obtain ⟨l, t, rfl, ht⟩ := htokens first (by simp [hs])
    exact ⟨l, t, rfl, ht⟩

end Straightline
