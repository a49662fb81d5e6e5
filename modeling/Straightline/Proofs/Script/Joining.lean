import Straightline.Proofs.Script.Lowering
import Straightline.Proofs.Script.Places
import Straightline.Proofs.Script.Separators

/-!
# Sources joined by a newline

A newline ends every token and every statement, so a source can be cut behind any line that can be
compiled by itself.

* `lexemesFrom_newline`: behind text that is all tokens, a newline is a token of its own, and what
  follows it is read as if it stood alone.
* `TokenStream.exists_program_eq`: behind a script and the end of a statement, reading starts anew.
* `compileInto_newline`: two sources that are added one after the other amount to one source with a
  newline between them.
-/

namespace Straightline

/-! ### Lexemes -/

/-- `splitTrivia` ends in front of a newline. -/
theorem splitTrivia_newline (inComment : Bool) (cs ds : List Char) :
    splitTrivia inComment (cs ++ '\n' :: ds) =
      ((splitTrivia inComment cs).1, (splitTrivia inComment cs).2 ++ '\n' :: ds) := by
  fun_induction splitTrivia inComment cs with
  | case1 inComment => cases inComment <;> rfl
  | case2 inComment c cs h skipped rest hsplit ih =>
    rw [List.cons_append, splitTrivia, if_pos h, ih, hsplit]
  | case3 inComment c cs h => rw [List.cons_append, splitTrivia, if_neg h]

/-- A text in front of a newline that is all tokens has the same lexemes as alone. The newline is a
    token of its own, and behind it the text starts anew. -/
theorem lexemesFrom_newline {offset : Nat} {cs : List Char}
    (h : ∀ l ∈ lexemesFrom offset cs, ∃ t, l.outcome = .ok t) (ds : List Char) :
    lexemesFrom offset (cs ++ '\n' :: ds) =
      lexemesFrom offset cs ++ ⟨.ok .stop, ['\n'], offset + byteLength cs⟩ ::
        lexemesFrom (offset + byteLength cs + 1) ds := by
  fun_induction lexemesFrom offset cs with
  | case1 offset cs skipped hsplit =>
    -- All of the text is skipped.
    have hskipped : skipped = cs := by
      have happend := splitTrivia_append false cs
      rwa [hsplit, List.append_nil] at happend
    have hsplit' : splitTrivia false (cs ++ '\n' :: ds) = (cs, '\n' :: ds) := by
      rw [splitTrivia_newline, hsplit, hskipped]
      rfl
    rw [lexemesFrom_of_scan hsplit']
    rfl
  | case2 offset cs skipped c rest hsplit start scan ih =>
    obtain ⟨t, ht⟩ := h ⟨scan.outcome, scan.text, start⟩ (by simp)
    have hsplit' : splitTrivia false (cs ++ '\n' :: ds) = (skipped, c :: (rest ++ '\n' :: ds)) := by
      rw [splitTrivia_newline, hsplit]
      rfl
    have hlength : byteLength cs =
        byteLength skipped + byteLength scan.text + byteLength scan.rest := by
      have happend := splitTrivia_append false cs
      rw [hsplit, ← scanToken_append c rest] at happend
      rw [← happend, byteLength_append, byteLength_append, Nat.add_assoc]
    have hend : start + byteLength scan.text + byteLength scan.rest = offset + byteLength cs := by
      rw [hlength]
      show offset + byteLength skipped + _ + _ = _
      omega
    rw [lexemesFrom_of_scan hsplit', scanToken_separator .newline ht]
    show _ :: lexemesFrom (start + byteLength scan.text) (scan.rest ++ '\n' :: ds) = _
    rw [ih fun l hl => h l (by simp [hl]), hend]
    rfl

/-! ### Reading -/

namespace TokenStream

open Parsed

/-- `program` looks for text that is no token before it reads a statement, so that to look twice
    changes nothing. -/
theorem enter_bind_program (s : TokenStream) : (s.enter >>= fun _ => s.program) = s.program := by
  cases s with
  | token | ended => rfl
  | broken e =>
    rw [program_eq_statement (by simp) (by simp)]
    rfl

/-- The tokens in front of a stream of lexemes. -/
theorem consumes_append {length : Nat} {ls : List Lexeme} {ts : List Token}
    (h : ls.map (·.outcome) = ts.map .ok) (more : List Lexeme) :
    (ofLexemes length (ls ++ more)).Consumes ts (ofLexemes length more) := by
  induction ls generalizing ts with
  | nil =>
    obtain rfl : ts = [] := by simpa using h
    exact .nil _
  | cons l ls ih =>
    cases ts with
    | nil => simp at h
    | cons t ts =>
      obtain ⟨hl, hls⟩ : l.outcome = .ok t ∧ ls.map (·.outcome) = ts.map .ok := List.cons.inj h
      rw [List.cons_append, ofLexemes, hl]
      exact .cons t l.span (ih hls)

/-- Behind a statement and its end, statements are read. -/
theorem exists_program_of_statement {s rest : TokenStream} {span : Span} {steps : List Step}
    (h : s.statement.Leaves steps (token .stop span rest)) :
    ∃ placed : List PlacedStep, placed.map (·.step) = steps ∧
      s.program = ⟨placed ++ rest.program.steps, rest.program.outcome⟩ := by
  obtain ⟨hlt, hsteps, houtcome⟩ := h
  refine ⟨s.statement.steps, hsteps, ?_⟩
  -- A statement starts neither at the end nor at a `;`, as the last two cases show.
  rw [program_eq_statement, bind_eq_andThen, andThen_of_ok _ houtcome]
  · show (⟨_ ++ (rest.enter >>= fun _ => rest.program).steps,
      (rest.enter >>= fun _ => rest.program).outcome⟩ :
      Parsed Unit) = _
    rw [enter_bind_program]
  · rintro offset rfl
    cases houtcome
  · rintro span' rest' rfl
    cases houtcome

/-- `s.program` behind the tokens of a script and the end of a statement is `rest.program`, with the
    steps of the script in front. -/
theorem exists_program_eq {ts : List Token} {script : Script Symbol} (h : script.Reads id ts)
    {s rest : TokenStream} {span : Span} (hc : s.Consumes ts (token .stop span rest)) :
    ∃ placed : List PlacedStep, placed.map (·.step) = Script.steps script ∧
      s.program = ⟨placed ++ rest.program.steps, rest.program.outcome⟩ := by
  have hread := isReadable_token .stop span rest
  -- By induction on the script: `program` reads one statement and goes on with the rest.
  induction h generalizing s with
  | nil =>
    cases hc
    refine ⟨[], rfl, ?_⟩
    rw [program, enter_bind_program]
    rfl
  | stop _ ih =>
    obtain ⟨span', s', rfl, hs'⟩ := hc.head
    rw [program, enter_bind_program]
    exact ih hs'
  | last hs =>
    rw [Script.steps_cons, Script.steps_nil, List.append_nil]
    exact exists_program_of_statement (statement_complete hs hc hread (noTighter_token (by simp) 3))
  | cons hs _ ih =>
    obtain ⟨mid, hts, hmid⟩ := hc.split
    obtain ⟨span', next, rfl, hnext⟩ := hmid.head
    have hstatement :=
      statement_complete hs hts (isReadable_token _ _ _) (noTighter_token (by simp) 3)
    obtain ⟨first, hfirst, hprogram⟩ := exists_program_of_statement hstatement
    obtain ⟨last, hlast, hnext⟩ := ih hnext
    refine ⟨first ++ last, ?_, ?_⟩
    · rw [List.map_append, hfirst, hlast, Script.steps_cons]
    · rw [hprogram, hnext, List.append_assoc]

end TokenStream

/-- A source in front of a newline, if it can be read by itself, does not change how what follows is
    read. -/
theorem exists_parse_newline {source : String} {steps : List Step}
    (h : (parse source).Yields steps ()) (more : String) :
    ∃ (script : Script Symbol) (placed : List PlacedStep) (later : Parsed Unit),
      steps = Script.steps script ∧ placed.map (·.step) = steps ∧
      (parse more).Alike (.shift (source.utf8ByteSize + 1)) (fun _ _ => True) later ∧
      parse (source ++ "\n" ++ more) = ⟨placed ++ later.steps, later.outcome⟩ := by
  obtain ⟨tokens, script, hlex, hreads, rfl⟩ := parse_yields_iff.mp h
  have htokens : ∀ l ∈ lexemesFrom 0 source.toList, ∃ t, l.outcome = .ok t := by
    intro l hl
    have hmem : l.outcome ∈ (lexemes source).map (·.outcome) := List.mem_map_of_mem hl
    rw [show (lexemes source).map (·.outcome) = tokens.map .ok from hlex] at hmem
    obtain ⟨t, -, ht⟩ := List.mem_map.mp hmem
    exact ⟨t, ht.symm⟩
  -- The lexemes behind the newline are those of the second source, moved.
  have hchars : (source ++ "\n" ++ more).toList = source.toList ++ '\n' :: more.toList := by
    simp [String.toList_append]
  have hlexemes := lexemesFrom_newline htokens more.toList
  rw [← hchars, byteLength_toList, Nat.add_assoc, lexemesFrom_add] at hlexemes
  have hsize : (source ++ "\n" ++ more).utf8ByteSize =
      more.utf8ByteSize + (source.utf8ByteSize + 1) := by
    rw [String.utf8ByteSize_append, String.utf8ByteSize_append]
    show source.utf8ByteSize + 1 + more.utf8ByteSize = _
    omega
  let stop : Lexeme := ⟨.ok .stop, ['\n'], 0 + source.utf8ByteSize⟩
  have hstream : TokenStream.ofSource (source ++ "\n" ++ more) =
      .ofLexemes (more.utf8ByteSize + (source.utf8ByteSize + 1))
        (lexemes source ++ stop ::
          (lexemes more).map (Lexeme.moved (source.utf8ByteSize + 1))) := by
    rw [TokenStream.ofSource, hsize, lexemes, hlexemes]
    rfl
  have hc : (TokenStream.ofSource (source ++ "\n" ++ more)).Consumes tokens
      (.token .stop stop.span ((TokenStream.ofSource more).relocated
        (.shift (source.utf8ByteSize + 1)))) := by
    rw [hstream, TokenStream.ofSource, ← TokenStream.ofLexemes_moved]
    exact TokenStream.consumes_append hlex _
  obtain ⟨placed, hplaced, hprogram⟩ := TokenStream.exists_program_eq hreads hc
  exact ⟨script, placed, _, rfl, hplaced, TokenStream.alike_program _, hprogram⟩

/-! ### Emission -/

/-- Steps at other places do the same, and an error blames the other place. -/
theorem Step.emitAll_relocated (f : Relocation) (steps : List PlacedStep) (stack : List Operand)
    (c : Compilation) :
    Step.emitAll (steps.map (PlacedStep.relocated f)) stack c =
      ((Step.emitAll steps stack c).1.mapError (ScriptError.relocated f),
        (Step.emitAll steps stack c).2) := by
  induction steps generalizing stack c with
  | nil => rfl
  | cons s steps ih =>
    rw [List.map_cons]
    -- A step does the same wherever it is placed; only the blame has the place.
    rcases hs : s.step.emit stack c with ⟨e | stack', c'⟩
    · have hfirst : ∀ span, Emit.blaming span (s.step.emit stack) c =
          (.error (.emission e span), c') :=
        fun span => by rw [Emit.blaming, hs]
      rw [Step.emitAll, Step.emitAll, bind_of_error (hfirst s.span)]
      exact bind_of_error (hfirst (f.place s.span))
    · have hfirst : ∀ span, Emit.blaming span (s.step.emit stack) c = (.ok stack', c') :=
        fun span => by rw [Emit.blaming, hs]
      rw [Step.emitAll, Step.emitAll, bind_of_ok (hfirst s.span), ← ih]
      exact bind_of_ok (hfirst (f.place s.span))

/-- `emitAll` on an append is `emitAll` on one list after the other. -/
theorem Step.emitAll_append (steps more : List PlacedStep) (stack : List Operand) :
    Step.emitAll (steps ++ more) stack = Step.emitAll steps stack >>= Step.emitAll more := by
  induction steps generalizing stack with
  | nil => rfl
  | cons s steps ih =>
    rw [List.cons_append, Step.emitAll, Step.emitAll, bind_assoc]
    exact congrArg _ (funext ih)

/-- A step that puts its result on the stack leaves what was there below it. -/
theorem exists_of_push {x : Emit Operand} {stack stack' : List Operand} {c c' : Compilation}
    (h : (do return (← x) :: stack : Emit (List Operand)) c = (.ok stack', c')) :
    ∃ y, stack' = y :: stack := by
  obtain ⟨y, c₁, -, hy⟩ := exists_of_bind_ok h
  exact ⟨y, (Except.ok.inj (Prod.mk.inj hy).1).symm⟩

/-- The steps of an expression put one value on the stack. -/
theorem Expr.exists_stack {e : Expr Symbol} {stack stack' : List Operand} {c c' : Compilation}
    (h : Step.emitList e.steps stack c = (.ok stack', c')) : ∃ x, stack' = x :: stack := by
  induction e generalizing stack stack' c c' with
  | literal value => exact ⟨.double value, (Except.ok.inj (Prod.mk.inj h).1).symm⟩
  | var name =>
    rw [Expr.steps, Step.emitList_singleton] at h
    exact exists_of_push h
  | negate e ih =>
    rw [Expr.steps, Step.emitList_append] at h
    obtain ⟨mid, c₁, hmid, h⟩ := exists_of_bind_ok h
    obtain ⟨x, rfl⟩ := ih hmid
    rw [Step.emitList_singleton] at h
    exact exists_of_push h
  -- The operands are pushed one upon the other, and the operator takes both.
  | binary op l r ihl ihr =>
    rw [Expr.steps, Step.emitList_append, Step.emitList_append] at h
    obtain ⟨mid, c₁, hmid, h⟩ := exists_of_bind_ok h
    obtain ⟨first, c₂, hfirst, hmid⟩ := exists_of_bind_ok hmid
    obtain ⟨x, rfl⟩ := ihl hfirst
    obtain ⟨y, rfl⟩ := ihr hmid
    rw [Step.emitList_singleton] at h
    exact exists_of_push h

/-- The steps of a statement leave the stack as it was. -/
theorem Statement.stack_eq {st : Statement Symbol} {stack stack' : List Operand}
    {c c' : Compilation} (h : Step.emitList st.steps stack c = (.ok stack', c')) :
    stack' = stack := by
  have hlast : ∀ {α : Type} {x : Emit α} {c : Compilation},
      (x >>= fun _ => pure stack : Emit (List Operand)) c = (.ok stack', c') → stack' = stack := by
    intro α x c h
    obtain ⟨_, c₁, -, hpure⟩ := exists_of_bind_ok h
    exact (Except.ok.inj (Prod.mk.inj hpure).1).symm
  cases st with
  | printString text =>
    rw [Statement.steps, Step.emitList_singleton] at h
    exact hlast h
  -- The one operand that the expression pushes is taken by the statement.
  | printNumber e | assign name e =>
    rw [Statement.steps, Step.emitList_append] at h
    obtain ⟨mid, c₁, hmid, h⟩ := exists_of_bind_ok h
    obtain ⟨x, rfl⟩ := Expr.exists_stack hmid
    rw [Step.emitList_singleton] at h
    exact hlast h

/-- The steps of a script leave the stack as it was. -/
theorem Script.stack_eq {script : Script Symbol} {stack stack' : List Operand} {c c' : Compilation}
    (h : Step.emitList (Script.steps script) stack c = (.ok stack', c')) : stack' = stack := by
  induction script generalizing c with
  | nil => exact (Except.ok.inj (Prod.mk.inj h).1).symm
  | cons st script ih =>
    rw [Script.steps_cons, Step.emitList_append] at h
    obtain ⟨mid, c₁, hmid, h⟩ := exists_of_bind_ok h
    rw [Statement.stack_eq hmid] at h
    exact ih h

/-! ### Compilations -/

/-- `q.compile`: what was read is added to a compilation. -/
def Parsed.compile (q : Parsed Unit) : Compile Unit := do
  let _ ← Step.emitAll q.steps []
  match q.outcome with
  | .ok () => return ()
  | .error e => throw (.malformed e)

/-- `compileInto` is `parse`, and then `Parsed.compile`. -/
theorem compileInto_eq_compile (source : String) :
    compileInto source = (parse source).compile := rfl

/-- What is read at other places is added in the same way, and an error is shown there. -/
theorem Parsed.Alike.compile_eq {f : Relocation} {q q' : Parsed Unit}
    (h : q.Alike f (fun _ _ => True) q') (c : Compilation) :
    q'.compile c = ((q.compile c).1.mapError (ScriptError.relocated f), (q.compile c).2) := by
  have hemit := Step.emitAll_relocated f q.steps [] c
  rw [← h.steps] at hemit
  unfold Parsed.compile
  rcases hall : Step.emitAll q.steps [] c with ⟨e | stack, c'⟩
  · rw [hall] at hemit
    rw [bind_of_error hemit, bind_of_error hall]
    rfl
  · rw [hall] at hemit
    rw [bind_of_ok hemit, bind_of_ok hall]
    -- If all steps are emitted, what counts is how the reading ended.
    have houtcome := h.outcome
    revert houtcome
    generalize q.outcome = outcome
    generalize q'.outcome = outcome'
    rintro (_ | e) <;> rfl

/-- Steps in front that succeed and leave no value are made first. -/
theorem Parsed.compile_append {placed : List PlacedStep} {c c' : Compilation}
    (h : Step.emitAll placed [] c = (.ok [], c')) (q : Parsed Unit) :
    Parsed.compile ⟨placed ++ q.steps, q.outcome⟩ c = q.compile c' := by
  unfold Parsed.compile
  dsimp only
  rw [Step.emitAll_append, bind_assoc, bind_of_ok h]

/-- Where `compileInto` succeeds, the steps and the reading do. -/
theorem exists_of_compileInto_ok {source : String} {c c' : Compilation}
    (h : compileInto source c = (.ok (), c')) :
    (∃ stack, Step.emitList ((parse source).steps.map (·.step)) [] c = (.ok stack, c')) ∧
      (parse source).outcome = .ok () := by
  rcases hlist : Step.emitList ((parse source).steps.map (·.step)) [] c with ⟨e | stack, c₁⟩
  · obtain ⟨span, hinto⟩ := compileInto_of_error hlist
    rw [hinto] at h
    cases h
  · rw [compileInto_of_ok hlist] at h
    obtain ⟨houtcome, rfl⟩ := Prod.mk.inj h
    refine ⟨⟨stack, hlist⟩, ?_⟩
    cases hparse : (parse source).outcome with
    | ok u => rfl
    | error e =>
      rw [hparse] at houtcome
      cases houtcome

/-- One source with a newline in it is added as its two parts are. -/
theorem compileInto_append_newline {source : String} {c c₁ : Compilation}
    (h : compileInto source c = (.ok (), c₁)) (more : String) :
    compileInto (source ++ "\n" ++ more) c =
      ((compileInto more c₁).1.mapError (ScriptError.moved (source.utf8ByteSize + 1)),
        (compileInto more c₁).2) := by
  obtain ⟨⟨stack, hlist⟩, houtcome⟩ := exists_of_compileInto_ok h
  obtain ⟨script, placed, later, hscript, hplaced, hlater, hparse⟩ :=
    exists_parse_newline ⟨rfl, houtcome⟩ more
  -- The steps of the first source have other places here, but they do the same and leave no value.
  obtain rfl : stack = [] := Script.stack_eq (hscript ▸ hlist)
  have hfirst : Step.emitAll placed [] c = (.ok [], c₁) := by
    have hall := Step.emitAll_eq placed [] c
    rwa [hplaced, hlist] at hall
  rw [compileInto_eq_compile, hparse, Parsed.compile_append hfirst, hlater.compile_eq]
  rfl

/-- Two sources that are added one after the other amount to one source with a newline between them:
    the compilation is the same, one succeeds if the other does, and an error has the same words and
    is shown later by the bytes of the first source and of the newline. -/
theorem compileInto_newline {source : String} {c c₁ : Compilation}
    (h : compileInto source c = (.ok (), c₁)) (more : String) :
    (compileInto (source ++ "\n" ++ more) c).2 = (compileInto more c₁).2 ∧
      ((compileInto (source ++ "\n" ++ more) c).1 = .ok () ↔ (compileInto more c₁).1 = .ok ()) ∧
      ∀ e, (compileInto more c₁).1 = .error e →
        (compileInto (source ++ "\n" ++ more) c).1 = .error (e.moved (source.utf8ByteSize + 1)) ∧
          (e.moved (source.utf8ByteSize + 1)).diagnostic =
            { e.diagnostic with span := e.diagnostic.span.moved (source.utf8ByteSize + 1) } := by
  rw [compileInto_append_newline h]
  refine ⟨rfl, ?_, fun e he => ⟨?_, e.diagnostic_moved _⟩⟩
  · cases (compileInto more c₁).1 with
    | ok u => exact Iff.rfl
    | error e => simp [Except.mapError]
  · rw [he]
    rfl

/-- The first source ends in a comment, and the second fails behind its first statement. -/
theorem compileInto_newline_sample :
    let c₁ := (compileInto "x = 1 # one" { options := {} }).2
    compileInto "x = 1 # one" { options := {} } = (.ok (), c₁) ∧
      (compileInto "print x\ny = x % 2" c₁).1 =
        .error (.emission (.unsupportedOperator "%") ⟨14, 1⟩) ∧
      (compileInto ("x = 1 # one" ++ "\n" ++ "print x\ny = x % 2") { options := {} }).1 =
        .error (.emission (.unsupportedOperator "%") ⟨26, 1⟩) := by
  intro c₁
  have hfirst : compileInto "x = 1 # one" { options := {} } = (.ok (), c₁) :=
    Prod.ext (by decide +kernel) rfl
  have hsecond : (compileInto "print x\ny = x % 2" c₁).1 =
      .error (.emission (.unsupportedOperator "%") ⟨14, 1⟩) := by decide +kernel
  exact ⟨hfirst, hsecond, ((compileInto_newline hfirst "print x\ny = x % 2").2.2 _ hsecond).1⟩

end Straightline
