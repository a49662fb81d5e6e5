import Straightline.Proofs.Script.Joining
import Straightline.Proofs.Script.Viable

/-!
# Layout does not matter

A source can be laid out in many ways, and what is compiled depends on its tokens alone.

* `outcomes` are the lexemes of a text without their places.
* `outcomes_insert`: blanks and comments may be inserted behind any token, since no token looks past
  a separator.
* `TokenStream.relocated_forget`: without their places, nothing but the tokens is left of a stream.
* `layout_irrelevant`: sources with the same tokens make the same module or fail with the same
  words, and blanks and comments between tokens change no token.
-/

namespace Straightline

/-! ### Lexemes without their places -/

/-- The tokens and faults of a text. -/
def outcomes (cs : List Char) : List (Except Fault Token) := (lexemesFrom 0 cs).map (·.outcome)

/-- `outcomes` does not depend on where the text starts. -/
theorem map_outcome_lexemesFrom (offset : Nat) (cs : List Char) :
    (lexemesFrom offset cs).map (·.outcome) = outcomes cs := by
  have hmoved := lexemesFrom_add offset 0 cs
  rw [Nat.zero_add] at hmoved
  rw [hmoved, List.map_map]
  rfl

section

variable {cs skipped rest : List Char} {c : Char}

/-- Blanks and comments have no outcomes. -/
theorem outcomes_of_trivia (h : splitTrivia false cs = (skipped, [])) : outcomes cs = [] := by
  rw [outcomes, lexemesFrom_of_trivia h]
  rfl

/-- Behind the blanks there is one outcome, and then those of what follows. -/
theorem outcomes_of_scan (h : splitTrivia false cs = (skipped, c :: rest)) :
    outcomes cs = (scanToken c rest).outcome :: outcomes (scanToken c rest).rest := by
  rw [outcomes, lexemesFrom_of_scan h, List.map_cons, map_outcome_lexemesFrom]

end

/-! ### Gaps -/

/-- `splitTrivia` in a comment reaches up to a newline. -/
theorem splitTrivia_of_comment {text after : List Char} (htext : '\n' ∉ text)
    (hafter : ∀ c ∈ after.head?, c = '\n') : splitTrivia true (text ++ after) = (text, after) := by
  induction text with
  | nil =>
    cases after with
    | nil => rfl
    | cons c after =>
      obtain rfl := hafter c rfl
      rfl
  | cons c text ih =>
    have hc : c ≠ '\n' := fun h => htext (h ▸ List.mem_cons_self)
    rw [List.cons_append, splitTrivia_inComment _ hc, ih fun h => htext (List.mem_cons_of_mem c h)]

namespace IsGap

variable {gap after : List Char}

/-- A gap has no newline. -/
theorem newline_notMem (h : IsGap gap after) : '\n' ∉ gap := by
  induction h with
  | nil => exact List.not_mem_nil
  | blank hc _ ih => rcases hc with rfl | rfl | rfl <;> simpa using ih
  | comment htext => simpa using htext

/-- A gap is empty or starts with a separator. -/
theorem eq_nil_or_separator (h : IsGap gap after) :
    gap = [] ∨ ∃ sep more, gap = sep :: more ∧ IsSeparator sep := by
  cases h with
  | nil => exact .inl rfl
  | blank hc =>
    refine .inr ⟨_, _, rfl, ?_⟩
    rcases hc with rfl | rfl | rfl
    · exact .inl rfl
    · exact .inr (.inl rfl)
    · exact .inr (.inr (.inl rfl))
  | comment => exact .inr ⟨'#', _, rfl, .inr (.inr (.inr (.inl rfl)))⟩

/-- `splitTrivia` skips a gap, and then goes on as without it. -/
theorem splitTrivia_eq (h : IsGap gap after) :
    splitTrivia false (gap ++ after) =
      (gap ++ (splitTrivia false after).1, (splitTrivia false after).2) := by
  induction h with
  | nil => rfl
  | blank hc _ ih => rw [List.cons_append, splitTrivia_blank _ hc, ih, List.cons_append]
  | @comment text after htext hafter =>
    -- What follows is a newline or nothing, so that there is nothing more to skip.
    have hnone : splitTrivia false after = ([], after) := by
      cases after with
      | nil => rfl
      | cons c after =>
        obtain rfl := hafter c rfl
        rfl
    rw [hnone, List.cons_append, splitTrivia_hash, splitTrivia_of_comment htext hafter,
      List.append_nil]

/-- A gap in front changes no outcome. -/
theorem outcomes_eq (h : IsGap gap after) : outcomes (gap ++ after) = outcomes after := by
  have hsplit := h.splitTrivia_eq
  rcases hafter : splitTrivia false after with ⟨skipped, _ | ⟨c, rest⟩⟩ <;> rw [hafter] at hsplit
  · rw [outcomes_of_trivia hsplit, outcomes_of_trivia hafter]
  · rw [outcomes_of_scan hsplit, outcomes_of_scan hafter]

end IsGap

/-- Behind text that is all skipped a gap is skipped too, also where it becomes a part of a
    comment. -/
theorem splitTrivia_append_gap {inComment : Bool} {cs gap : List Char}
    (h : (splitTrivia inComment cs).2 = []) (hgap : IsGap gap []) :
    (splitTrivia inComment (cs ++ gap)).2 = [] := by
  fun_induction splitTrivia inComment cs with
  | case1 inComment =>
    rw [List.nil_append, ← List.append_nil gap]
    cases inComment with
    | false => rw [hgap.splitTrivia_eq]; rfl
    -- A comment at the end goes on through the gap, which has no line end.
    | true => rw [splitTrivia_of_comment hgap.newline_notMem (by simp)]
  | case2 inComment c cs hc skipped rest hsplit ih =>
    rw [List.cons_append, splitTrivia, if_pos hc]
    rw [hsplit] at ih
    exact ih h
  | case3 => cases h

/-- `splitTrivia` ends at the same character, whatever follows it. -/
theorem splitTrivia_tail {inComment : Bool} {cs skipped rest : List Char} {c : Char}
    (h : splitTrivia inComment cs = (skipped, c :: rest)) (more : List Char) :
    splitTrivia inComment (skipped ++ c :: more) = (skipped, c :: more) := by
  fun_induction splitTrivia inComment cs generalizing skipped with
  | case1 => cases h
  | case2 inComment d cs hd skipped' rest' hsplit ih =>
    obtain ⟨rfl, rfl⟩ := Prod.mk.inj h
    rw [List.cons_append, splitTrivia, if_pos hd, ih hsplit]
  | case3 inComment d cs hd =>
    obtain ⟨rfl, hcons⟩ := Prod.mk.inj h
    obtain ⟨rfl, -⟩ := List.cons.inj hcons
    rw [List.nil_append, splitTrivia, if_neg hd]

/-! ### Inserting a gap -/

/-- Of two cuts of one text, the one at the earlier byte is inside of what the other one cuts
    off. -/
theorem exists_append_of_byteLength_le {a b c d : List Char} (h : a ++ b = c ++ d)
    (hle : byteLength a ≤ byteLength c) : ∃ e, c = a ++ e ∧ b = e ++ d := by
  rcases List.append_eq_append_iff.mp h with hinside | ⟨e, rfl, rfl⟩
  · exact hinside
  · rw [byteLength_append] at hle
    obtain rfl := eq_nil_of_byteLength (show byteLength e = 0 by omega)
    exact ⟨[], by simp, rfl⟩

/-- A gap in the text behind a token leaves the token as it is. -/
theorem outcomes_append_gap {cs skipped rest before gap after : List Char} {c : Char} {t : Token}
    (hsplit : splitTrivia false cs = (skipped, c :: rest)) (ht : (scanToken c rest).outcome = .ok t)
    (hrest : (scanToken c rest).rest = before ++ after) (hgap : IsGap gap after) :
    outcomes (skipped ++ (scanToken c rest).text ++ before ++ gap ++ after) =
      .ok t :: outcomes (before ++ gap ++ after) := by
  obtain ⟨d, text, htext⟩ := List.exists_cons_of_ne_nil (scanToken_text_ne_nil c rest)
  have happend := scanToken_append c rest
  rw [htext, hrest, List.cons_append] at happend
  obtain ⟨rfl, htail⟩ := List.cons.inj happend
  rw [← List.append_assoc] at htail
  -- A gap starts with a separator, which ends the token, or it is empty.
  have hscan : scanToken d (text ++ before ++ gap ++ after) =
      { scanToken d rest with rest := before ++ gap ++ after } := by
    rcases hgap.eq_nil_or_separator with rfl | ⟨sep, more, rfl, hsep⟩
    · rw [List.append_nil, List.append_nil, htail, ← hrest]
    · rw [← htail] at ht hrest ⊢
      exact scanToken_insert ht hrest hsep more
  have hshape : skipped ++ (scanToken d rest).text ++ before ++ gap ++ after =
      skipped ++ d :: (text ++ before ++ gap ++ after) := by simp [htext]
  rw [hshape, outcomes_of_scan (splitTrivia_tail hsplit _), hscan, ht]

/-- A gap behind a token, or at the end, leaves all outcomes as they are. -/
theorem outcomes_insert {offset : Nat} {cs after gap : List Char} (before : List Char)
    (hcs : cs = before ++ after) (hok : ∀ l ∈ lexemesFrom offset cs, ∃ t, l.outcome = .ok t)
    (hplace : after = [] ∨ ∃ l ∈ lexemesFrom offset cs, l.span.stop = offset + byteLength before)
    (hgap : IsGap gap after) : outcomes (before ++ gap ++ after) = outcomes cs := by
  -- The induction is on the tokens in front of the place: each of them is cut off from what is in
  -- front of it.
  fun_induction lexemesFrom offset cs generalizing before with
  | case1 offset cs skipped hsplit =>
    obtain rfl : after = [] := by simpa using hplace
    rw [List.append_nil] at hcs ⊢
    have hsplit' : (splitTrivia false (cs ++ gap)).2 = [] :=
      splitTrivia_append_gap (by rw [hsplit]) hgap
    rw [← hcs, outcomes_of_trivia hsplit, outcomes_of_trivia (Prod.ext rfl hsplit')]
  | case2 offset cs skipped c rest hsplit start scan ih =>
    obtain ⟨t, ht⟩ := hok ⟨scan.outcome, scan.text, start⟩ (by simp)
    have happend : skipped ++ scan.text ++ scan.rest = cs := append_scan hsplit
    have hstop : start + byteLength scan.text = offset + byteLength (skipped ++ scan.text) := by
      rw [byteLength_append, ← Nat.add_assoc]
    have hle : byteLength (skipped ++ scan.text) ≤ byteLength before := by
      rcases hplace with rfl | ⟨l, hl, hbefore⟩
      · rw [hcs, List.append_nil] at happend
        rw [← happend, byteLength_append _ scan.rest]
        exact Nat.le_add_right _ _
      · rcases List.mem_cons.mp hl with rfl | hl
        · have hfirst : start + byteLength scan.text = offset + byteLength before := hbefore
          omega
        · obtain ⟨-, front, -, -, hoffset⟩ := (tiles_lexemesFrom _ _).exists_append hl
          have hlater : l.offset + byteLength l.text = offset + byteLength before := hbefore
          omega
    obtain ⟨before', rfl, hrest⟩ := exists_append_of_byteLength_le (happend.trans hcs) hle
    have hlater : outcomes (before' ++ gap ++ after) = outcomes scan.rest := by
      have hok' : ∀ l ∈ lexemesFrom (start + byteLength scan.text) scan.rest, ∃ t,
          l.outcome = .ok t :=
        fun l hl => hok l (List.mem_cons_of_mem _ hl)
      rw [byteLength_append _ before', ← Nat.add_assoc, ← hstop] at hplace
      rcases hplace with hafter | ⟨l, hl, hbefore⟩
      · exact ih before' hrest hok' (.inl hafter)
      · rcases List.mem_cons.mp hl with rfl | hl
        · -- The place is right behind this token, where the gap stands in front of the others.
          have hfirst : start + byteLength scan.text =
              start + byteLength scan.text + byteLength before' := hbefore
          obtain rfl := eq_nil_of_byteLength (show byteLength before' = 0 by omega)
          rw [hrest]
          exact hgap.outcomes_eq
        · exact ih before' hrest hok' (.inr ⟨l, hl, hbefore⟩)
    rw [outcomes_append_gap hsplit ht hrest hgap, hlater, outcomes_of_scan hsplit, ← ht]

/-! ### Forgetting places -/

namespace TokenStream

/-- The stream of some tokens that stand nowhere. -/
def ofTokens : List Token → TokenStream
  | [] => ended 0
  | t :: tokens => token t ⟨0, 0⟩ (ofTokens tokens)

/-- Without their places, lexemes that are tokens make the stream `ofTokens`. -/
theorem relocated_forget {ls : List Lexeme} {tokens : List Token}
    (h : ls.map (·.outcome) = tokens.map .ok) (length : Nat) :
    (ofLexemes length ls).relocated .forget = ofTokens tokens := by
  induction ls generalizing tokens with
  | nil =>
    obtain rfl : tokens = [] := by simpa using h.symm
    rfl
  | cons l ls ih =>
    cases tokens with
    | nil => cases h
    | cons t tokens =>
      simp only [List.map_cons, List.cons.injEq] at h
      obtain ⟨ht, h⟩ := h
      -- All lexemes are tokens, so the stream is never broken.
      have hstream : ofLexemes length (l :: ls) = token t l.span (ofLexemes length ls) := by
        rw [ofLexemes, ht]
      rw [hstream, relocated, ih h]
      rfl

end TokenStream

/-- What `compileInto` does depends on the tokens of the source, up to the place of an error. -/
theorem compileInto_forget {source : String} {tokens : List Token} (h : Lexes source tokens)
    (c : Compilation) :
    (TokenStream.ofTokens tokens).program.compile c =
      ((compileInto source c).1.mapError (ScriptError.relocated .forget),
        (compileInto source c).2) := by
  have halike := TokenStream.alike_program (f := .forget) (TokenStream.ofSource source)
  have hstream : (TokenStream.ofSource source).relocated .forget = TokenStream.ofTokens tokens :=
    TokenStream.relocated_forget h _
  rw [hstream] at halike
  exact halike.compile_eq c

/-- Errors that differ in their places only are shown with the same words. -/
theorem ScriptError.diagnostic_of_relocated_eq {f : Relocation} {e e' : ScriptError}
    (h : e'.relocated f = e.relocated f) :
    e'.diagnostic = { e.diagnostic with span := e'.diagnostic.span } := by
  have hshown := congrArg diagnostic h
  rw [diagnostic_relocated, diagnostic_relocated] at hshown
  exact congrArg (fun d : Diagnostic => { d with span := e'.diagnostic.span }) hshown

/-- Sources with the same tokens make the same module, or fail for the same cause. -/
theorem compile_of_lexes {source source' : String} {tokens : List Token} (h : Lexes source tokens)
    (h' : Lexes source' tokens) (options : Options) :
    (∃ m, compile source options = .ok m ∧ compile source' options = .ok m) ∨
      ∃ e e', compile source options = .error e ∧ compile source' options = .error e' ∧
        e'.relocated .forget = e.relocated .forget := by
  have hinto := (compileInto_forget h' { options }).symm.trans (compileInto_forget h { options })
  obtain ⟨hresult, hstate⟩ := Prod.mk.inj hinto
  rcases hc : compileInto source { options } with ⟨_ | _, c⟩ <;>
    rcases hc' : compileInto source' { options } with ⟨_ | _, c'⟩ <;> rw [hc, hc'] at hresult hstate
  case error.error e e' =>
    exact .inr ⟨e, e', compile_of_error hc, compile_of_error hc', Except.error.inj hresult⟩
  case error.ok => cases hresult
  case ok.error => cases hresult
  case ok.ok =>
    obtain rfl : c' = c := hstate
    -- Finishing does not look at the source any more.
    rcases hfinish : Emit.finish c' with ⟨_ | _, final⟩
    case error cause =>
      exact .inr ⟨_, _, compile_of_finish_error hc hfinish,
        compile_of_finish_error hc' hfinish, rfl⟩
    case ok => exact .inl ⟨_, compile_of_finish hc hfinish, compile_of_finish hc' hfinish⟩

/-! ### Layout -/

/-- Layout does not matter. Two sources with the same tokens, where a newline and a semicolon are
    the same token and numbers are equal as bits, make the same module, or fail for the same cause
    and with the same words. In front of all tokens of a source, right behind any of them and at the
    end of the source, blanks and comments can be inserted without changing its tokens. -/
theorem layout_irrelevant (options : Options) :
    (∀ (source source' : String) (tokens : List Token), Lexes source tokens → Lexes source' tokens →
      (∃ m, compile source options = .ok m ∧ compile source' options = .ok m) ∨
        ∃ e e', compile source options = .error e ∧ compile source' options = .error e' ∧
          e'.relocated .forget = e.relocated .forget ∧
          e'.diagnostic = { e.diagnostic with span := e'.diagnostic.span }) ∧
    ∀ (source : String) (tokens : List Token) (before gap after : List Char), Lexes source tokens →
      source.toList = before ++ after →
      (before = [] ∨ after = [] ∨ ∃ l ∈ lexemes source, l.span.stop = byteLength before) →
      IsGap gap after → Lexes (String.ofList (before ++ gap ++ after)) tokens := by
  constructor
  · intro source source' tokens h h'
    rcases compile_of_lexes h h' options with hok | ⟨e, e', he, he', hcause⟩
    · exact .inl hok
    · exact .inr ⟨e, e', he, he', hcause, ScriptError.diagnostic_of_relocated_eq hcause⟩
  · intro source tokens before gap after h hsource hplace hgap
    have htokens : outcomes source.toList = tokens.map .ok := h
    show outcomes (String.ofList (before ++ gap ++ after)).toList = tokens.map .ok
    rw [String.toList_ofList, ← htokens]
    -- In front of the source the gap is skipped; elsewhere it follows a token.
    rcases hplace with rfl | hplace
    · rw [hsource]
      exact hgap.outcomes_eq
    · have hok : ∀ l ∈ lexemesFrom 0 source.toList, ∃ t, l.outcome = .ok t := by
        intro l hl
        have hmem : l.outcome ∈ tokens.map .ok := htokens ▸ List.mem_map_of_mem hl
        obtain ⟨t, -, ht⟩ := List.mem_map.mp hmem
        exact ⟨t, ht.symm⟩
      rw [← Nat.zero_add (byteLength before)] at hplace
      exact outcomes_insert before hsource hok hplace hgap

/-- A blank and a comment are inserted in front of a newline, behind a number that would go on
    otherwise. The same tokens on one line, with the number written in another way, make the same
    module, and an operator that cannot be computed is found however it is laid out. -/
theorem layout_irrelevant_sample :
    let tokens : List Token :=
      [.ident "x", .assign, .number ⟨0x4024000000000000⟩, .stop, .print, .ident "x"]
    Lexes "x=1e1\nprint x" tokens ∧ Lexes "x=1e1 # 2\nprint x" tokens ∧
    (∃ m, compile "x=1e1\nprint x" {} = .ok m ∧ compile "x = 10.0;\tprint x" {} = .ok m) ∧
    compile "print 2%x" {} = .error (.emission (.unsupportedOperator "%") ⟨7, 1⟩) ∧
    ∃ span, compile "print\t2.0 % x # rest" {} =
      .error (.emission (.unsupportedOperator "%") span) := by
  intro tokens
  have hlexes : Lexes "x=1e1\nprint x" tokens := by decide +kernel
  have hfails : compile "print 2%x" {} = .error (.emission (.unsupportedOperator "%") ⟨7, 1⟩) := by
    decide +kernel
  refine ⟨hlexes, ?_, ?_, hfails, ?_⟩
  · have hgap : IsGap [' ', '#', ' ', '2'] ('\n' :: "print x".toList) :=
      .blank (.inl rfl) (.comment (by simp) (by simp))
    have hwider :=
      (layout_irrelevant {}).2 _ _ ['x', '=', '1', 'e', '1'] _ _ hlexes (by decide +kernel)
      (.inr (.inr (by decide +kernel))) hgap
    have htext : String.ofList
        (['x', '=', '1', 'e', '1'] ++ [' ', '#', ' ', '2'] ++ '\n' :: "print x".toList) =
        "x=1e1 # 2\nprint x" := by decide +kernel
    rwa [htext] at hwider
  · have hlexes' : Lexes "x = 10.0;\tprint x" tokens := by decide +kernel
    rcases (layout_irrelevant {}).1 _ _ _ hlexes hlexes' with hok | ⟨e, _, he, -⟩
    · exact hok
    · have hok : (compile "x=1e1\nprint x" {}).isOk = true := by decide +kernel
      rw [he] at hok
      cases hok
  · have h : Lexes "print 2%x" [.print, .number ⟨0x4000000000000000⟩, .op .percent,
        .ident "x"] := by decide +kernel
    have h' : Lexes "print\t2.0 % x # rest" [.print, .number ⟨0x4000000000000000⟩, .op .percent,
        .ident "x"] := by
      decide +kernel
    rcases (layout_irrelevant {}).1 _ _ _ h h' with ⟨_, hok, -⟩ | ⟨e, e', he, he', hcause, -⟩
    · cases hfails.symm.trans hok
    · obtain rfl := Except.error.inj (hfails.symm.trans he)
      cases e' with
      | malformed => cases hcause
      | emission cause span =>
        obtain ⟨rfl, -⟩ := ScriptError.emission.inj hcause
        exact ⟨span, he'⟩

end Straightline
