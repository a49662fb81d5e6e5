import Straightline.Script.Lexer

/-!
# Reading one lexeme

* `Scans` lists the ways to read a lexeme, each with what it needs of the text.
* `scans_scanToken` and `Scans.scanToken_eq`: reading takes one of them, and there is only one that
  it can take.
-/

namespace Straightline

/-- `Scans c cs s`: one of the ways to read a lexeme from a text that begins with `c`. -/
inductive Scans (c : Char) (cs : List Char) : Scan → Prop
  | punctuation {t : Token} (h : punctuation? c = some t) : Scans c cs ⟨.ok t, [c], cs⟩
  | equal {rest : List Char} (hc : c = '=') (h : cs = '=' :: rest) :
    Scans c cs ⟨.ok (.op .equal), ['=', '='], rest⟩
  | assign (hc : c = '=') (h : ∀ rest, cs ≠ '=' :: rest) : Scans c cs ⟨.ok .assign, ['='], cs⟩
  | literal {value : List Char} (hc : c = '"') (h : (scanString cs).value = some value) :
    Scans c cs ⟨.ok (.str (String.ofList value)), '"' :: (scanString cs).text, (scanString cs).rest⟩
  | unterminated (hc : c = '"') (h : (scanString cs).value = none) :
    Scans c cs ⟨.error .unterminatedString, '"' :: (scanString cs).text, (scanString cs).rest⟩
  | number (hpunctuation : punctuation? c = none) (hequal : c ≠ '=') (hquote : c ≠ '"')
    (h : startsNumber c cs = true) : Scans c cs (scanNumber (c :: cs))
  | word (hpunctuation : punctuation? c = none) (hequal : c ≠ '=') (hquote : c ≠ '"')
    (hnumber : startsNumber c cs = false) (h : isWordStart c = true) :
    Scans c cs ⟨.ok (wordToken (c :: cs.takeWhile isWordChar)), c :: cs.takeWhile isWordChar,
      cs.dropWhile isWordChar⟩
  | unexpected (hpunctuation : punctuation? c = none) (hequal : c ≠ '=') (hquote : c ≠ '"')
    (hnumber : startsNumber c cs = false) (h : isWordStart c = false) :
    Scans c cs ⟨.error (.unexpectedChar c), [c], cs⟩

/-- `scanToken` reads in one of these ways. -/
theorem scans_scanToken (c : Char) (cs : List Char) : Scans c cs (scanToken c cs) := by
  unfold scanToken
  split
  · next h => exact .punctuation h
  · -- One split for each test that `scanToken` makes, and one rule for each way out.
    next hpunctuation =>
    split
    · next hequal =>
      split
      · exact .equal hequal rfl
      · next h => exact .assign hequal h
    · next hequal =>
      split
      · next hquote =>
        dsimp only
        split
        · next h => exact .literal hquote h
        · next h => exact .unterminated hquote h
      · next hquote =>
        split
        · next h => exact .number hpunctuation hequal hquote h
        · next hnumber =>
          have hnumber := Bool.eq_false_iff.mpr hnumber
          split
          · next h => exact .word hpunctuation hequal hquote hnumber h
          · next h => exact .unexpected hpunctuation hequal hquote hnumber (Bool.eq_false_iff.mpr h)

/-- There is no other way: `Scans c cs s` gives `scanToken c cs = s`. -/
theorem Scans.scanToken_eq {c : Char} {cs : List Char} {s : Scan} (h : Scans c cs s) :
    scanToken c cs = s := by
  have hequal : punctuation? '=' = none := rfl
  have hquote : punctuation? '"' = none := rfl
  unfold scanToken
  cases h with
  | punctuation h => rw [h]
  | equal hc h =>
    subst hc h
    rfl
  -- `=` and the quote are not among the punctuation, so these tests are passed over.
  | assign hc h =>
    subst hc
    rw [hequal]
    dsimp only
    rw [if_pos rfl]
    split
    · next rest => exact absurd rfl (h rest)
    · rfl
  | literal hc h | unterminated hc h =>
    subst hc
    rw [hquote]
    dsimp only
    rw [if_neg (by decide), if_pos rfl, h]
  | number hpunctuation hequal hquote h => rw [hpunctuation, if_neg hequal, if_neg hquote, if_pos h]
  | word hpunctuation hequal hquote hnumber h =>
    rw [hpunctuation]
    dsimp only
    rw [if_neg hequal, if_neg hquote, hnumber, if_pos h]
    rfl
  | unexpected hpunctuation hequal hquote hnumber h =>
    rw [hpunctuation, if_neg hequal, if_neg hquote, hnumber, h]
    rfl

/-- `scanNumber` gives a number or the fault `invalidNumber`. -/
theorem scanNumber_outcome (cs : List Char) :
    (∃ value, (scanNumber cs).outcome = .ok (.number value)) ∨
    (scanNumber cs).outcome = .error .invalidNumber := by
  unfold scanNumber
  dsimp only
  split
  · next value _ => exact .inl ⟨value, rfl⟩
  · exact .inr rfl

end Straightline
