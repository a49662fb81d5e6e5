import Straightline.Proofs.Ir.Decoding
import Straightline.Proofs.Script.Lowering
import Straightline.Proofs.Script.Quotes
import Straightline.Proofs.Script.Tiling

/-!
# String literals

* `quoted` writes a text as it stands between the quotes of a literal, and `scanToken_quoted` reads
  it back, whatever follows.
* `literal_survives`: a text that is written so and printed is found again in a constant of the
  program, and between the quotes of that constant's line.
* `literal_crosses_iff_escaped`: a literal ends on the line where it starts, unless a backslash
  escapes the end of that line.
-/

namespace Straightline

/-! ### Writing a literal -/

/-- A character as it is written in a literal. -/
def quoteChar : Char → List Char
  | '\\' => ['\\', '\\']
  | '"' => ['\\', '"']
  | '\n' => ['\\', 'n']
  | '\t' => ['\\', 't']
  | c => [c]

/-- A text as it is written between the quotes of a literal. -/
def quoted (text : String) : String := String.ofList (text.toList.flatMap quoteChar)

/-- `quoteChar c` in front of a body stands for `c` in front of what the body stands for. -/
theorem StandsFor.quoteChar {body value : List Char} (h : StandsFor body value) (c : Char) :
    StandsFor (quoteChar c ++ body) (c :: value) := by
  by_cases hbackslash : c = '\\'
  · subst hbackslash
    exact .escape '\\' h
  by_cases hquote : c = '"'
  · subst hquote
    exact .escape '"' h
  by_cases hnewline : c = '\n'
  · subst hnewline
    exact .escape 'n' h
  by_cases htab : c = '\t'
  · subst htab
    exact .escape 't' h
  -- No other character is escaped, and none of them ends the literal.
  rw [quoteChar.eq_5 c hbackslash hquote hnewline htab]
  exact .plain hquote hnewline hbackslash h

/-- `quoted text` stands for `text`. -/
theorem standsFor_quoted (text : String) : StandsFor (quoted text).toList text.toList := by
  rw [quoted, String.toList_ofList]
  induction text.toList with
  | nil => exact .nil
  | cons c cs ih =>
    rw [List.flatMap_cons]
    exact ih.quoteChar c

/-- Between quotes, `quoted text` has two bytes more. -/
theorem byteLength_quoted (text : String) :
    byteLength ('"' :: (quoted text).toList ++ ['"']) = (quoted text).utf8ByteSize + 2 := by
  rw [List.cons_append, byteLength_cons, byteLength_append, byteLength_toList, Nat.add_comm]
  rfl

/-- `scanToken` reads `quoted text` between quotes as the literal `text`, to the closing quote. -/
theorem scanToken_quoted (text : String) (rest : List Char) :
    scanToken '"' ((quoted text).toList ++ '"' :: rest) =
      ⟨.ok (.str text), '"' :: (quoted text).toList ++ ['"'], rest⟩ := by
  rw [(standsFor_quoted text).scanToken_eq, String.ofList_toList]
  rfl

/-- A literal is the first lexeme of a text that starts with it. -/
theorem lexemesFrom_quoted (offset : Nat) (text : String) (rest : List Char) :
    lexemesFrom offset ('"' :: ((quoted text).toList ++ '"' :: rest)) =
      ⟨.ok (.str text), '"' :: (quoted text).toList ++ ['"'], offset⟩ ::
        lexemesFrom (offset + ((quoted text).utf8ByteSize + 2)) rest := by
  have hsplit : splitTrivia false ('"' :: ((quoted text).toList ++ '"' :: rest)) =
      ([], '"' :: ((quoted text).toList ++ '"' :: rest)) := rfl
  rw [lexemesFrom_of_scan hsplit, scanToken_quoted, byteLength_quoted]
  rfl

/-- `scanToken` reads the keyword in front of a blank. -/
theorem scanToken_print (cs : List Char) :
    scanToken 'p' ("rint".toList ++ ' ' :: cs) = ⟨.ok .print, "print".toList, ' ' :: cs⟩ := by
  have hnone : punctuation? 'p' = none := rfl
  have hnumber : startsNumber 'p' ("rint".toList ++ ' ' :: cs) = false := rfl
  have hstart : isWordStart 'p' = true := by decide +kernel
  -- The word ends at the blank, whatever follows it.
  have hword : ∀ c ∈ "rint".toList, isWordChar c = true := by
    have hall : "rint".toList.all isWordChar = true := by decide +kernel
    exact List.all_eq_true.mp hall
  have hblank : isWordChar ' ' = false := by decide +kernel
  unfold scanToken
  rw [hnone, hnumber, hstart, List.takeWhile_append_of_pos hword,
    List.dropWhile_append_of_pos hword, List.takeWhile_cons_of_neg (by simp [hblank]),
    List.dropWhile_cons_of_neg (by simp [hblank])]
  rfl

/-- The tokens of `print "…"` with `quoted text` between the quotes. -/
theorem lexes_print_quoted (text : String) :
    Lexes ("print \"" ++ quoted text ++ "\"") [.print, .str text] := by
  have hchars : ("print \"" ++ quoted text ++ "\"").toList =
      'p' :: ("rint".toList ++ ' ' :: '"' :: ((quoted text).toList ++ ['"'])) := by
    simp [String.toList_append]
  have hsplit : splitTrivia false
      ('p' :: ("rint".toList ++ ' ' :: '"' :: ((quoted text).toList ++ ['"']))) =
      ([], 'p' :: ("rint".toList ++ ' ' :: '"' :: ((quoted text).toList ++ ['"']))) := rfl
  have hblank : splitTrivia false (' ' :: '"' :: ((quoted text).toList ++ ['"'])) =
      ([' '], '"' :: ((quoted text).toList ++ ['"'])) := rfl
  have hended : ∀ offset, lexemesFrom offset [] = [] := fun offset => lexemesFrom_of_trivia rfl
  unfold Lexes lexemes
  -- Two rounds of the scanner: the word up to the blank, and the literal up to the end.
  rw [hchars, lexemesFrom_of_scan hsplit, scanToken_print]
  dsimp only
  rw [lexemesFrom_of_scan hblank, scanToken_quoted, hended]
  rfl

/-- The tree of `print "…"` with `quoted text` between the quotes. -/
theorem parsesTo_print_quoted (text : String) :
    ParsesTo ("print \"" ++ quoted text ++ "\"") [.printString text] :=
  ⟨_, lexes_print_quoted text, .last (.printString text)⟩

/-- A text survives as a literal. Written with escapes, it is the first lexeme of every source that
    starts with it, and the lexeme covers what was written. Printed by a script, it is the first
    constant of the program, and the line of that constant declares one byte more than the text has,
    and has its bytes and a NUL between its quotes. -/
theorem literal_survives (text rest : String) (options : Options) :
    (∃ l later, lexemes ("\"" ++ quoted text ++ "\"" ++ rest) = l :: later ∧
      l.outcome = .ok (.str text) ∧
      l.span = ⟨0, (quoted text).utf8ByteSize + 2⟩) ∧
    ∃ m g literal, compile ("print \"" ++ quoted text ++ "\"") options = .ok m ∧
      m.globals[0]? = some g ∧
      g.bytes = text.toByteArray ∧ m.lines[3]? = some g.text ∧
      g.text = "@0 = private unnamed_addr constant [" ++
        Decimal.text (text.utf8ByteSize + 1) ++ " x i8] c\"" ++ literal ++ "\", align 1" ∧
      '"' ∉ literal.toList ∧ decodeBytes? literal.toList =
        some (text.toByteArray.data.toList ++ [0]) := by
  constructor
  · have hchars : ("\"" ++ quoted text ++ "\"" ++ rest).toList =
        '"' :: ((quoted text).toList ++ '"' :: rest.toList) := by simp [String.toList_append]
    refine ⟨_, _, by rw [lexemes, hchars, lexemesFrom_quoted], rfl, ?_⟩
    rw [Lexeme.span, byteLength_quoted]
  · -- The text is the first constant, and so the fourth line of the module.
    have hcompile : compile ("print \"" ++ quoted text ++ "\"") options = .ok _ :=
      (parsesTo_print_quoted text).compile_eq_ok (fun _ => rfl)
    obtain ⟨literal, htext, hquote, hdecode⟩ := Global.exists_literal ⟨0, text.toByteArray⟩
    have hname : "@" ++ Decimal.text 0 ++ " = private unnamed_addr constant [" =
        "@0 = private unnamed_addr constant [" := by decide +kernel
    dsimp only at htext
    rw [hname] at htext
    exact ⟨_, ⟨0, text.toByteArray⟩, literal, hcompile, rfl, rfl, rfl, htext, hquote, hdecode⟩

/-! ### Literals and lines -/

/-- `IsClosed cs`: a closing quote follows, on this line or on a later one. -/
def IsClosed (cs : List Char) : Prop :=
  ∃ body value rest, cs = body ++ '"' :: rest ∧ StandsFor body value

/-- `IsClosedOnLine cs`: a closing quote follows on the same line. -/
def IsClosedOnLine (cs : List Char) : Prop :=
  ∃ body value rest, cs = body ++ '"' :: rest ∧ StandsFor body value ∧ '\n' ∉ body

/-- `EscapesLineEnd cs`: the line goes on without a closing quote up to a backslash that escapes its
    end. -/
def EscapesLineEnd (cs : List Char) : Prop :=
  ∃ body value rest, cs = body ++ '\\' :: '\n' :: rest ∧ StandsFor body value ∧ '\n' ∉ body

/-- `EscapesLineEnd` for every body with a newline: the first newline stands behind a backslash
    too. -/
theorem StandsFor.escapesLineEnd {body value : List Char} (h : StandsFor body value)
    (hmem : '\n' ∈ body) (cs : List Char) : EscapesLineEnd (body ++ cs) := by
  induction h with
  | nil => cases hmem
  | @plain c body value hquote hnewline hbackslash _ ih =>
    have hlater : '\n' ∈ body := (List.mem_cons.mp hmem).resolve_left hnewline.symm
    obtain ⟨front, frontValue, rest, happend, hfront, hfree⟩ := ih hlater
    refine ⟨c :: front, _, rest, by rw [List.cons_append, happend, List.cons_append],
      .plain hquote hnewline hbackslash hfront, ?_⟩
    simp [hnewline.symm, hfree]
  | @escape c body value _ ih =>
    -- The first newline is this one, or there is one further on.
    by_cases hc : c = '\n'
    · exact ⟨[], [], body ++ cs, by rw [hc]; rfl, .nil, List.not_mem_nil⟩
    · have hlater : '\n' ∈ body := by simpa [Ne.symm hc] using hmem
      obtain ⟨front, frontValue, rest, happend, hfront, hfree⟩ := ih hlater
      refine ⟨'\\' :: c :: front, _, rest, by simp only [List.cons_append, happend],
        .escape c hfront, ?_⟩
      simp [Ne.symm hc, hfree]

/-- `IsClosed cs` gives `IsClosedOnLine cs` or `EscapesLineEnd cs`. -/
theorem IsClosed.onLine_or_escapes {cs : List Char} (h : IsClosed cs) :
    IsClosedOnLine cs ∨ EscapesLineEnd cs := by
  obtain ⟨body, value, rest, rfl, hbody⟩ := h
  by_cases hmem : '\n' ∈ body
  · exact .inr (hbody.escapesLineEnd hmem _)
  · exact .inl ⟨body, value, rest, rfl, hbody, hmem⟩

/-- What is closed on its line is closed. -/
theorem IsClosedOnLine.isClosed {cs : List Char} (h : IsClosedOnLine cs) : IsClosed cs := by
  obtain ⟨body, value, rest, happend, hbody, -⟩ := h
  exact ⟨body, value, rest, happend, hbody⟩

/-- `scanToken` gives a literal if a closing quote follows. -/
theorem IsClosed.exists_str {cs : List Char} (h : IsClosed cs) :
    ∃ text, (scanToken '"' cs).outcome = .ok (.str text) := by
  obtain ⟨body, value, rest, rfl, hbody⟩ := h
  exact ⟨String.ofList value, by rw [hbody.scanToken_eq]⟩

/-- `scanToken` gives the fault `unterminatedString` if no closing quote follows. -/
theorem unterminated_of_not_isClosed {cs : List Char} (h : ¬IsClosed cs) :
    (scanToken '"' cs).outcome = .error .unterminatedString := by
  rw [scanToken_quote]
  cases hvalue : (scanString cs).value with
  | none => rfl
  | some value =>
    obtain ⟨body, rest, hcs, hbody⟩ := exists_standsFor hvalue
    exact absurd ⟨body, value, rest, hcs, hbody⟩ h

/-- The text of the token goes over a line end behind a backslash. -/
theorem EscapesLineEnd.newline_mem {cs : List Char} (h : EscapesLineEnd cs) :
    '\n' ∈ (scanToken '"' cs).text := by
  obtain ⟨body, value, rest, rfl, hbody, -⟩ := h
  rw [scanToken_quote, hbody.scanString_append]
  simp [scanString, StringScan.cons]

/-- The text of a literal that is closed on its line has no newline. -/
theorem IsClosedOnLine.newline_not_mem {cs : List Char} (h : IsClosedOnLine cs) :
    '\n' ∉ (scanToken '"' cs).text := by
  obtain ⟨body, value, rest, rfl, hbody, hfree⟩ := h
  rw [hbody.scanToken_eq]
  simp [hfree]

/-- A lexeme is what `scanToken` gives where it starts. -/
theorem eq_of_mem_lexemes {source : String} {l : Lexeme} (hl : l ∈ lexemes source)
    {before after : List Char} {c : Char} (hsource : source.toList = before ++ c :: after)
    (hoffset : l.offset = byteLength before) :
    l.outcome = (scanToken c after).outcome ∧ l.text = (scanToken c after).text := by
  obtain ⟨before', d, after', hsource', rfl⟩ := exists_scan_of_mem hl
  have hcut : Text.cutAt? (byteLength before) source.toList = some (before, c :: after) := by
    rw [hsource, Text.cutAt?_byteLength]
  rw [hsource', ← hoffset, Nat.zero_add, Text.cutAt?_byteLength] at hcut
  obtain ⟨-, hbehind⟩ := Prod.mk.inj (Option.some.inj hcut)
  obtain ⟨rfl, rfl⟩ := List.cons.inj hbehind
  exact ⟨rfl, rfl⟩

/-- Where literals end. A literal that is a token crosses a line if and only if a backslash escapes
    the end of the line where it starts. What starts with a quote is a token if it is closed
    somewhere, and a fault if not. If it is closed on its line, it stays there. If its line, or the
    source, ends before that, and not behind a backslash, it is a fault. -/
theorem literal_crosses_iff_escaped {source : String} {l : Lexeme} (hl : l ∈ lexemes source) :
    (∀ text, l.outcome = .ok (.str text) → ∃ before after, source.toList = before ++ '"' :: after ∧
      l.offset = byteLength before ∧ ('\n' ∈ l.text ↔ EscapesLineEnd after)) ∧
    ∀ before after, source.toList = before ++ '"' :: after → l.offset = byteLength before →
      (IsClosed after → ∃ text, l.outcome = .ok (.str text)) ∧
      (¬IsClosed after → l.outcome = .error .unterminatedString) ∧
      (IsClosedOnLine after → (∃ text, l.outcome = .ok (.str text)) ∧ '\n' ∉ l.text) ∧
      (¬IsClosedOnLine after → ¬EscapesLineEnd after → l.outcome = .error .unterminatedString) := by
  constructor
  · intro text htext
    obtain ⟨before, c, after, hsource, rfl⟩ := exists_scan_of_mem hl
    obtain ⟨rfl, body, rest, hafter, hbody⟩ := exists_standsFor_of_str htext
    -- A literal that was read is closed, on its line or beyond an escaped line end.
    have hclosed : IsClosed after := ⟨body, text.toList, rest, hafter, hbody⟩
    refine ⟨before, after, hsource, Nat.zero_add _, fun hmem => ?_, EscapesLineEnd.newline_mem⟩
    exact hclosed.onLine_or_escapes.resolve_left fun hline => hline.newline_not_mem hmem
  · intro before after hsource hoffset
    -- The lexeme at this offset is the one that is scanned from the quote.
    obtain ⟨houtcome, htext⟩ := eq_of_mem_lexemes hl hsource hoffset
    rw [houtcome, htext]
    refine ⟨IsClosed.exists_str, unterminated_of_not_isClosed,
      fun hline => ⟨hline.isClosed.exists_str, hline.newline_not_mem⟩, fun hline hend => ?_⟩
    refine unterminated_of_not_isClosed fun hclosed => ?_
    rcases hclosed.onLine_or_escapes with h | h
    · exact hline h
    · exact hend h

/-- A literal whose line ends behind an escape is a fault, though there is a quote on the next
    line. -/
theorem literal_crosses_iff_escaped_sample :
    ∃ l ∈ lexemes "\"\\t\n\"", l.offset = 0 ∧ l.outcome = .error .unterminatedString := by
  have hoffsets : (lexemes "\"\\t\n\"").map (·.offset) = [0, 4] := by decide +kernel
  have hstart : 0 ∈ (lexemes "\"\\t\n\"").map (·.offset) := by rw [hoffsets]; decide
  obtain ⟨l, hl, hoffset⟩ := List.mem_map.mp hstart
  have hline : ¬IsClosedOnLine ['\\', 't', '\n', '"'] := by
    rintro ⟨body, _, rest, happend, -, hfree⟩
    rcases body with _ | ⟨a, _ | ⟨b, _ | ⟨c, body⟩⟩⟩ <;> simp_all
  have hend : ¬EscapesLineEnd ['\\', 't', '\n', '"'] := by
    rintro ⟨body, _, rest, happend, -, -⟩
    rcases body with _ | ⟨a, _ | ⟨b, _ | ⟨c, _ | ⟨d, body⟩⟩⟩⟩ <;> simp at happend
  exact ⟨l, hl, hoffset, ((literal_crosses_iff_escaped hl).2 [] _ rfl hoffset).2.2.2 hline hend⟩

/-- A literal may cross a line. -/
theorem literal_crosses_line :
    ¬∀ source, ∀ l ∈ lexemes source, ∀ text, l.outcome = .ok (.str text) → '\n' ∉ l.text := by
  intro h
  have hlexeme : (lexemes "\"a\\\nb\"").map (fun l => (l.outcome, l.text)) =
      [(.ok (.str "a\\\nb"), ['"', 'a', '\\', '\n', 'b', '"'])] := by decide +kernel
  have hmem : (Except.ok (.str "a\\\nb"), ['"', 'a', '\\', '\n', 'b', '"']) ∈
      (lexemes "\"a\\\nb\"").map (fun l => (l.outcome, l.text)) := by
        rw [hlexeme]; exact List.mem_singleton_self _
  obtain ⟨l, hl, heq⟩ := List.mem_map.mp hmem
  obtain ⟨houtcome, htext⟩ := Prod.mk.inj heq
  exact h _ l hl _ houtcome (by rw [htext]; decide)

end Straightline
