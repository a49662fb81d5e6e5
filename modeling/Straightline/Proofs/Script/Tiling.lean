import Straightline.Proofs.Script.Places
import Straightline.Proofs.Script.Scanning

/-!
# Lexemes tile a source

A lexer keeps a position in bytes and moves it on with every call, over characters of different
lengths and over text that is no token. Nothing is lost on the way: the lexemes stand one behind the
other, and between them there is nothing but blanks and comments.

* `IsGap` says what may stand between lexemes, and `isGap_splitTrivia` that nothing else is skipped.
* `nextLexeme?` is one call at a position, which is refused inside of a character, and
  `nextLexemes?` are calls in a row. `nextLexemes?_append`: they find the lexemes of a source, then
  its end as often as they are made.
* `Tiles` says that lexemes and gaps in turn make up a text, and `tiles_lexemesFrom` that those of a
  text do.
* `lexemes_tile` puts this in terms of positions.
-/

namespace Straightline

/-! ### Gaps -/

/-- `IsGap gap after`: the text may stand between lexemes, in front of `after`. It has blanks, then
    possibly a comment, which reaches up to a newline or to the end of the source. -/
inductive IsGap : (gap after : List Char) → Prop
  | nil (after : List Char) : IsGap [] after
  | blank {c : Char} {gap after : List Char} (hc : c = ' ' ∨ c = '\t' ∨ c = '\r') :
    IsGap gap after → IsGap (c :: gap) after
  | comment {text after : List Char} (htext : '\n' ∉ text) (hafter : ∀ c ∈ after.head?, c = '\n') :
    IsGap ('#' :: text) after

/-- `isBlank` holds of blanks, tabs and carriage returns. -/
theorem isBlank_iff (c : Char) : isBlank c = true ↔ c = ' ' ∨ c = '\t' ∨ c = '\r' := by
  simp [isBlank, or_assoc]

section

variable {c : Char} (cs : List Char)

/-- `splitTrivia` skips a blank. -/
theorem splitTrivia_blank (hc : c = ' ' ∨ c = '\t' ∨ c = '\r') :
    splitTrivia false (c :: cs) = (c :: (splitTrivia false cs).1, (splitTrivia false cs).2) := by
  have hhash : c ≠ '#' := by rcases hc with rfl | rfl | rfl <;> decide
  simp [splitTrivia, (isBlank_iff c).mpr hc, hhash]

/-- `splitTrivia` begins a comment at `#`. -/
theorem splitTrivia_hash :
    splitTrivia false ('#' :: cs) = ('#' :: (splitTrivia true cs).1, (splitTrivia true cs).2) := by
  simp [splitTrivia]

/-- `splitTrivia` skips every other character than a newline in a comment. -/
theorem splitTrivia_inComment (hc : c ≠ '\n') :
    splitTrivia true (c :: cs) = (c :: (splitTrivia true cs).1, (splitTrivia true cs).2) := by
  simp [splitTrivia, hc]

end

/-- `splitTrivia` ends a comment in front of a newline or at the end. -/
theorem splitTrivia_comment (cs : List Char) :
    '\n' ∉ (splitTrivia true cs).1 ∧ ∀ c ∈ (splitTrivia true cs).2.head?, c = '\n' := by
  induction cs with
  | nil => simp [splitTrivia]
  | cons c cs ih =>
    by_cases hc : c = '\n'
    · simp [splitTrivia, hc]
    · rw [splitTrivia_inComment cs hc]
      exact ⟨by simp [Ne.symm hc, ih.1], ih.2⟩

/-- What `splitTrivia` skips is a gap. -/
theorem isGap_splitTrivia (cs : List Char) :
    IsGap (splitTrivia false cs).1 (splitTrivia false cs).2 := by
  induction cs with
  | nil => exact .nil []
  | cons c cs ih =>
    by_cases hblank : isBlank c = true
    · have hc := (isBlank_iff c).mp hblank
      rw [splitTrivia_blank cs hc]
      exact .blank hc ih
    · -- Within a comment the flag is `true`, so `splitTrivia_comment` applies and `ih` does not.
      by_cases hc : c = '#'
      · obtain ⟨htext, hafter⟩ := splitTrivia_comment cs
        rw [hc, splitTrivia_hash]
        exact .comment htext hafter
      · have hstep : splitTrivia false (c :: cs) = ([], c :: cs) := by
          simp [splitTrivia, hblank, hc]
        rw [hstep]
        exact .nil _

/-! ### Calls -/

/-- What a call of a lexer finds. -/
inductive NextLexeme where
  | lexeme (l : Lexeme)
  /-- The end of the source. -/
  | ended (span : Span)

/-- A call of a lexer that stands at a byte of a source: what it finds behind the blanks there, and
    where it stands then. It cannot be made inside of a character. -/
def nextLexeme? (source : List Char) (position : Nat) : Option (NextLexeme × Nat) := do
  let (_, cs) ← Text.cutAt? position source
  match splitTrivia false cs with
  | (skipped, []) =>
    let start := position + byteLength skipped
    return (.ended ⟨start, 0⟩, start)
  | (skipped, c :: rest) =>
    let start := position + byteLength skipped
    let s := scanToken c rest
    return (.lexeme ⟨s.outcome, s.text, start⟩, start + byteLength s.text)

/-- What a number of calls in a row find. -/
def nextLexemes? (source : List Char) : Nat → Nat → Option (List NextLexeme)
  | 0, _ => some []
  | n + 1, position => do
    let (found, position) ← nextLexeme? source position
    let later ← nextLexemes? source n position
    return found :: later

/-- A call that finds a lexeme moves on. -/
theorem lt_of_nextLexeme? {source : List Char} {position position' : Nat} {l : Lexeme}
    (h : nextLexeme? source position = some (.lexeme l, position')) : position < position' := by
  obtain ⟨⟨before, cs⟩, -, h⟩ := Option.bind_eq_some_iff.mp h
  rcases hsplit : splitTrivia false cs with ⟨skipped, _ | ⟨c, rest⟩⟩
  · simp [hsplit] at h
  · simp only [hsplit, Option.pure_def, Option.some.injEq, Prod.mk.injEq] at h
    have hpos := byteLength_pos (scanToken_text_ne_nil c rest)
    omega

section

variable {before cs skipped rest : List Char} {c : Char}

/-- `nextLexeme?` finds the end, and stays there, where only blanks are left. -/
theorem nextLexeme?_of_trivia (h : splitTrivia false cs = (skipped, [])) :
    nextLexeme? (before ++ cs) (byteLength before) =
      some (.ended ⟨byteLength (before ++ cs), 0⟩, byteLength (before ++ cs)) := by
  have hskipped : skipped = cs := by simpa [h] using splitTrivia_append false cs
  subst hskipped
  simp [nextLexeme?, Text.cutAt?_byteLength, h]

/-- `nextLexeme?` finds the lexeme behind the blanks, and stands behind that. -/
theorem nextLexeme?_of_scan (h : splitTrivia false cs = (skipped, c :: rest)) :
    nextLexeme? (before ++ cs) (byteLength before) =
      some (.lexeme ⟨(scanToken c rest).outcome, (scanToken c rest).text,
        byteLength (before ++ skipped)⟩,
        byteLength (before ++ skipped ++ (scanToken c rest).text)) := by
  simp [nextLexeme?, Text.cutAt?_byteLength, h, Nat.add_assoc]

/-- The blanks, the text of the lexeme and what is left make up the text. -/
theorem append_scan (h : splitTrivia false cs = (skipped, c :: rest)) :
    skipped ++ (scanToken c rest).text ++ (scanToken c rest).rest = cs := by
  rw [List.append_assoc, scanToken_append]
  simpa [h] using splitTrivia_append false cs

end

/-- One call, then the others. -/
theorem nextLexemes?_succ {source : List Char} {position position' n : Nat} {found : NextLexeme}
    {later : List NextLexeme} (h : nextLexeme? source position = some (found, position'))
    (hlater : nextLexemes? source n position' = some later) :
    nextLexemes? source (n + 1) position = some (found :: later) := by
  rw [nextLexemes?, h]
  show (nextLexemes? source n position').bind _ = _
  rw [hlater]
  rfl

/-- `nextLexemes?` finds nothing but the end at the end of the source. -/
theorem nextLexemes?_ended (source : List Char) (n : Nat) :
    nextLexemes? source n (byteLength source) =
      some (List.replicate n (.ended ⟨byteLength source, 0⟩)) := by
  induction n with
  | zero => rfl
  | succ n ih =>
    have hcall : nextLexeme? (source ++ []) (byteLength source) = _ := nextLexeme?_of_trivia rfl
    rw [List.append_nil] at hcall
    exact nextLexemes?_succ hcall ih

/-- `nextLexemes?` finds the lexemes of the text, then the end as often as it is called. -/
theorem nextLexemes?_append (before cs : List Char) (n : Nat) :
    nextLexemes? (before ++ cs) ((lexemesFrom (byteLength before) cs).length + n)
      (byteLength before) =
      some ((lexemesFrom (byteLength before) cs).map .lexeme ++
        List.replicate n (.ended ⟨byteLength (before ++ cs), 0⟩)) := by
  -- The induction is on the lexemes, so the position has to be a variable of its own.
  generalize hoffset : byteLength before = offset
  fun_induction lexemesFrom offset cs generalizing before with
  | case1 offset cs skipped h =>
    subst hoffset
    rw [List.length_nil, Nat.zero_add]
    cases n with
    | zero => rfl
    | succ n => exact nextLexemes?_succ (nextLexeme?_of_trivia h) (nextLexemes?_ended _ n)
  | case2 offset cs skipped c rest h start scan ih =>
    subst hoffset
    have hstart : byteLength (before ++ skipped) = start := byteLength_append before skipped
    have hnext : byteLength (before ++ skipped ++ scan.text) = start + byteLength scan.text := by
      rw [byteLength_append, hstart]
    have happend : before ++ skipped ++ scan.text ++ scan.rest = before ++ cs := by
      rw [← append_scan h]
      simp only [List.append_assoc]
      rfl
    have hcall : nextLexeme? (before ++ cs) (byteLength before) =
        some (.lexeme ⟨scan.outcome, scan.text, start⟩, start + byteLength scan.text) := by
      rw [nextLexeme?_of_scan h, hstart, hnext]
    have hlater := ih (before ++ skipped ++ scan.text) hnext
    rw [happend] at hlater
    rw [List.length_cons, Nat.add_right_comm]
    exact nextLexemes?_succ hcall hlater

/-! ### Tiles -/

/-- Where a stretch of the source ends. -/
def Span.stop (span : Span) : Nat := span.start + span.length

/-- `Tiles offset cs ls`: the lexemes `ls`, with gaps in front of them and behind the last one, make
    up the text `cs`, which starts at the byte `offset`. -/
inductive Tiles : (offset : Nat) → (cs : List Char) → List Lexeme → Prop
  | nil {offset : Nat} {gap : List Char} : IsGap gap [] → Tiles offset gap []
  | cons {offset : Nat} {gap rest : List Char} {l : Lexeme} {ls : List Lexeme}
    (hgap : IsGap gap (l.text ++ rest))
    (htext : l.text ≠ []) (hoffset : l.offset = offset + byteLength gap) :
    Tiles l.span.stop rest ls → Tiles offset (gap ++ l.text ++ rest) (l :: ls)

/-- The lexemes of a text tile it. -/
theorem tiles_lexemesFrom (offset : Nat) (cs : List Char) :
    Tiles offset cs (lexemesFrom offset cs) := by
  fun_induction lexemesFrom offset cs with
  | case1 offset cs skipped h =>
    have hgap := isGap_splitTrivia cs
    have hskipped : skipped = cs := by simpa [h] using splitTrivia_append false cs
    rw [h, hskipped] at hgap
    exact .nil hgap
  | case2 offset cs skipped c rest h start scan ih =>
    have hgap := isGap_splitTrivia cs
    rw [h, ← scanToken_append c rest] at hgap
    have htiles : Tiles offset (skipped ++ scan.text ++ scan.rest) _ :=
      .cons (l := ⟨scan.outcome, scan.text, start⟩) hgap (scanToken_text_ne_nil c rest) rfl ih
    rwa [append_scan h] at htiles

namespace Tiles

variable {offset : Nat} {cs : List Char} {ls : List Lexeme}

/-- Every lexeme covers characters of the text, and stands where they start. -/
theorem exists_append (h : Tiles offset cs ls) {l : Lexeme} (hl : l ∈ ls) :
    l.text ≠ [] ∧ ∃ before after, cs = before ++ l.text ++ after ∧
      l.offset = offset + byteLength before := by
  induction h with
  | nil => cases hl
  | @cons offset gap rest l' ls hgap htext hoffset _ ih =>
    rcases List.mem_cons.mp hl with rfl | hl
    · exact ⟨htext, gap, rest, rfl, hoffset⟩
    · obtain ⟨hne, before, after, rfl, hl⟩ := ih hl
      refine ⟨hne, gap ++ l'.text ++ before, after, by simp only [List.append_assoc], ?_⟩
      simp only [hl, hoffset, Span.stop, Lexeme.span, byteLength_append]
      omega

/-- Each lexeme ends before the next one starts. -/
theorem pairwise (h : Tiles offset cs ls) :
    ls.Pairwise (fun l l' => l.span.stop ≤ l'.span.start) := by
  induction h with
  | nil => exact .nil
  | cons hgap htext hoffset hrest ih =>
    refine .cons (fun l hl => ?_) ih
    obtain ⟨-, before, -, -, hl⟩ := hrest.exists_append hl
    show _ ≤ l.offset
    omega

/-- Between the end of one lexeme and the start of the next, and before and behind them all, there
    is a gap. -/
theorem exists_gap (h : Tiles offset cs ls) {p : Nat × Nat}
    (hp : p ∈ (offset :: ls.map (·.span.stop)).zip
      (ls.map (·.span.start) ++ [offset + byteLength cs])) :
    ∃ before gap after, cs = before ++ gap ++ after ∧ IsGap gap after ∧
      p = (offset + byteLength before, offset + byteLength (before ++ gap)) := by
  induction h with
  | @nil offset gap hgap =>
    obtain rfl : p = (offset, offset + byteLength gap) := by simpa using hp
    exact ⟨[], gap, [], by simp, hgap, rfl⟩
  | @cons offset gap rest l ls hgap htext hoffset _ ih =>
    rcases List.mem_cons.mp hp with rfl | hp
    · refine ⟨[], gap, l.text ++ rest, by simp, hgap, ?_⟩
      show (offset, l.offset) = _
      rw [hoffset]
      rfl
    · -- Behind the lexeme, the end of the text is as far away as the rest is long.
      have hlength : offset + byteLength (gap ++ l.text ++ rest) =
          l.span.stop + byteLength rest := by
        simp only [hoffset, Span.stop, Lexeme.span, byteLength_append]
        omega
      rw [hlength] at hp
      obtain ⟨before, gap', after, rfl, hgap', rfl⟩ := ih hp
      refine ⟨gap ++ l.text ++ before, gap', after, by simp only [List.append_assoc], hgap', ?_⟩
      simp only [hoffset, Span.stop, Lexeme.span, byteLength_append, Prod.mk.injEq]
      omega

end Tiles

/-! ### Positions -/

/-- A lexeme is what `scanToken` gives somewhere in the text. -/
theorem exists_scan_of_mem {offset : Nat} {cs : List Char} {l : Lexeme}
    (hl : l ∈ lexemesFrom offset cs) :
    ∃ before c rest, cs = before ++ c :: rest ∧
      l = ⟨(scanToken c rest).outcome, (scanToken c rest).text, offset + byteLength before⟩ := by
  fun_induction lexemesFrom offset cs with
  | case1 => cases hl
  | case2 offset cs skipped c rest h start scan ih =>
    have happend := append_scan h
    rcases List.mem_cons.mp hl with rfl | hl
    · -- The first lexeme stands behind what was skipped, and another one behind both.
      refine ⟨skipped, c, rest, ?_, rfl⟩
      rw [← happend, List.append_assoc, scanToken_append]
    · obtain ⟨before, d, ds, hrest, rfl⟩ := ih hl
      refine ⟨skipped ++ scan.text ++ before, d, ds, ?_, ?_⟩
      · rw [← happend, List.append_assoc (skipped ++ scan.text), ← hrest]
      · have hstart : start = offset + byteLength skipped := rfl
        simp only [byteLength_append, hstart, Nat.add_assoc]

/-- A lexeme with the fault `unexpectedChar d` covers `d` alone. -/
theorem text_of_unexpectedChar {c d : Char} {cs : List Char}
    (h : (scanToken c cs).outcome = .error (.unexpectedChar d)) : (scanToken c cs).text = [d] := by
  have hscan := scans_scanToken c cs
  generalize scanToken c cs = s at h hscan ⊢
  -- All ways but the last give a token or another fault.
  cases hscan with
  | punctuation | equal | assign | literal | unterminated | word => cases h
  | number =>
    rcases scanNumber_outcome (c :: cs) with ⟨value, hnumber⟩ | hnumber <;>
      cases hnumber.symm.trans h
  | unexpected =>
    cases h
    rfl

/-- Lexemes tile a source. Calls in a row find each of them, then the end, which stands behind all
    bytes; and a call that finds one moves on. The lexemes cover characters of the source, each at
    least one, and each ends before the next one starts. Between them, and before and behind them
    all, there are blanks and comments only. -/
theorem lexemes_tile (source : String) :
    (∀ n, nextLexemes? source.toList ((lexemes source).length + n) 0 =
      some ((lexemes source).map .lexeme ++ List.replicate n (.ended ⟨source.utf8ByteSize, 0⟩))) ∧
    (∀ position l position', nextLexeme? source.toList position = some (.lexeme l, position') →
      position < position') ∧
    (∀ l ∈ lexemes source, 0 < l.span.length ∧ l.span.stop ≤ source.utf8ByteSize ∧
      (∃ before after, source.toList = before ++ l.text ++ after ∧
        l.span = ⟨byteLength before, byteLength l.text⟩) ∧
      ∀ c, l.outcome = .error (.unexpectedChar c) → l.text = [c]) ∧
    (lexemes source).Pairwise (fun l l' => l.span.stop ≤ l'.span.start) ∧
    ∀ p ∈ (0 :: (lexemes source).map (·.span.stop)).zip
        ((lexemes source).map (·.span.start) ++ [source.utf8ByteSize]),
      ∃ before gap after, source.toList = before ++ gap ++ after ∧ IsGap gap after ∧
        p = (byteLength before, byteLength (before ++ gap)) := by
  have htiles : Tiles 0 source.toList (lexemes source) := tiles_lexemesFrom 0 source.toList
  have hlength := byteLength_toList source
  refine ⟨fun n => ?_, fun _ _ _ => lt_of_nextLexeme?, fun l hl => ?_, htiles.pairwise,
    fun p hp => ?_⟩
  · -- Each part is a fact about `Tiles`, with the offsets counted from the start of the source.
    have hcalls := nextLexemes?_append [] source.toList n
    rwa [List.nil_append, hlength] at hcalls
  · obtain ⟨htext, before, after, happend, hoffset⟩ := htiles.exists_append hl
    rw [Nat.zero_add] at hoffset
    have hspan : l.span = ⟨byteLength before, byteLength l.text⟩ := by rw [Lexeme.span, hoffset]
    refine ⟨?_, ?_, ⟨before, after, happend, hspan⟩, fun c hc => ?_⟩
    · exact byteLength_pos htext
    · rw [hspan, ← hlength, happend, byteLength_append, byteLength_append]
      exact Nat.le_add_right _ _
    · obtain ⟨_, d, ds, -, rfl⟩ := exists_scan_of_mem hl
      exact text_of_unexpectedChar hc
  · rw [← hlength] at hp
    obtain ⟨before, gap, after, happend, hgap, rfl⟩ := htiles.exists_gap (by simpa using hp)
    exact ⟨before, gap, after, happend, hgap, by simp only [Nat.zero_add]⟩

/-- A word, a number with a comment behind it, another word and a string. -/
def accentedSource : String := "été = 2.5 # é\nprint \"ça\""

/-- Letters with accents take two bytes. Between the number, which ends at byte 11, and the end of
    its line at byte 16 there are a blank and a comment. -/
theorem lexemes_tile_sample :
    (lexemes accentedSource).map (·.span.start) = [0, 6, 8, 16, 17, 23] ∧
      (lexemes accentedSource).map (·.span.stop) = [5, 7, 11, 17, 22, 28] ∧
      ∃ before gap after, accentedSource.toList = before ++ gap ++ after ∧ IsGap gap after ∧
        byteLength before = 11 ∧ byteLength (before ++ gap) = 16 := by
  have hstarts : (lexemes accentedSource).map (·.span.start) = [0, 6, 8, 16, 17, 23] := by
    decide +kernel
  have hstops : (lexemes accentedSource).map (·.span.stop) = [5, 7, 11, 17, 22, 28] := by
    decide +kernel
  obtain ⟨before, gap, after, happend, hgap, hplace⟩ :=
    (lexemes_tile accentedSource).2.2.2.2 (11, 16) (by rw [hstops, hstarts]; decide)
  obtain ⟨hbefore, hend⟩ := Prod.mk.inj hplace
  exact ⟨hstarts, hstops, before, gap, after, happend, hgap, hbefore.symm, hend.symm⟩

end Straightline
