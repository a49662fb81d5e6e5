import Straightline.Proofs.Script.Quotes

/-!
# Where tokens end

A token is as long as it can be, and what stands behind a separator plays no part in that.

* `IsSeparator` are the characters that end every token but a string literal: blanks, newlines and
  the start of a comment.
* `scanToken_separator`: a token is the same with a separator and more text behind it.
* `scanToken_of_append`: a token is the same without text that stands behind it.
* `scanToken_insert`: so a separator and more text can be put anywhere behind it.
-/

namespace Straightline

/-- `IsSeparator c`: the character ends every token but a string literal. -/
def IsSeparator (c : Char) : Prop := c = ' ' ∨ c = '\t' ∨ c = '\r' ∨ c = '#' ∨ c = '\n'

namespace IsSeparator

/-- A newline is a separator. -/
theorem newline : IsSeparator '\n' := .inr (.inr (.inr (.inr rfl)))

variable {c : Char} (h : IsSeparator c)

include h

/-- A separator is no digit. -/
theorem isDigit_eq : c.isDigit = false := by
  rcases h with rfl | rfl | rfl | rfl | rfl <;> rfl

/-- A separator is in no number. -/
theorem isNumberChar_eq : isNumberChar c = false := by
  rcases h with rfl | rfl | rfl | rfl | rfl <;> decide

/-- A separator is in no word. -/
theorem isWordChar_eq : isWordChar c = false := by
  rcases h with rfl | rfl | rfl | rfl | rfl <;> decide +kernel

/-- A separator is none of the characters that a token may go on with. -/
theorem ne : c ≠ '=' ∧ c ≠ '+' ∧ c ≠ '-' ∧ c ≠ 'e' ∧ c ≠ 'E' := by
  rcases h with rfl | rfl | rfl | rfl | rfl <;> decide

end IsSeparator

/-! ### Text behind a separator -/

section

variable {p : Char → Bool} {sep : Char} (hp : p sep = false) (cs ds : List Char)

include hp

/-- `takeWhile p` stops at the separator, if `p` fails there. -/
theorem takeWhile_separator : (cs ++ sep :: ds).takeWhile p = cs.takeWhile p := by
  induction cs with
  | nil => simp [hp]
  | cons c cs ih => rw [List.cons_append, List.takeWhile_cons, List.takeWhile_cons, ih]

/-- `dropWhile p` stops at the separator, if `p` fails there. -/
theorem dropWhile_separator : (cs ++ sep :: ds).dropWhile p = cs.dropWhile p ++ sep :: ds := by
  induction cs with
  | nil => simp [hp]
  | cons c cs ih =>
    rw [List.cons_append, List.dropWhile_cons, List.dropWhile_cons, ih]
    split <;> rfl

end

/-- A sign in front of a text, if there is one, and the rest of the text. -/
def splitSign : List Char → List Char × List Char
  | '+' :: cs => (['+'], cs)
  | '-' :: cs => (['-'], cs)
  | cs => ([], cs)

/-- `splitExponent` at a mark is `splitSign` behind it, if digits follow the sign. -/
theorem splitExponent_cons (mark : Char) (cs : List Char) :
    splitExponent (mark :: cs) =
      if mark = 'e' || mark = 'E' then
        if ((splitSign cs).2.takeWhile Char.isDigit).isEmpty then ([], mark :: cs)
        else (mark :: (splitSign cs).1 ++ (splitSign cs).2.takeWhile Char.isDigit,
          (splitSign cs).2.dropWhile Char.isDigit)
      else ([], mark :: cs) := by
  unfold splitExponent
  dsimp only
  split
  · split
    · rfl
    · rfl
    · next hplus hminus => rw [splitSign.eq_3 cs hplus hminus]
  · rfl

/-- `splitSign` finds no sign in front of another character. -/
theorem splitSign_of_ne {c : Char} (hplus : c ≠ '+') (hminus : c ≠ '-') (cs : List Char) :
    splitSign (c :: cs) = ([], c :: cs) :=
  splitSign.eq_3 (c :: cs) (by simp [hplus]) (by simp [hminus])

/-- `splitSign` looks at the first character alone. -/
theorem splitSign_append (c : Char) (cs ds : List Char) :
    splitSign (c :: cs ++ ds) = ((splitSign (c :: cs)).1, (splitSign (c :: cs)).2 ++ ds) := by
  by_cases hplus : c = '+'
  · subst hplus
    rfl
  · by_cases hminus : c = '-'
    · subst hminus
      rfl
    · rw [List.cons_append, splitSign_of_ne hplus hminus, splitSign_of_ne hplus hminus]
      rfl

/-- The text that a scan leaves, with more behind it. -/
def Scan.before (s : Scan) (ds : List Char) : Scan := { s with rest := s.rest ++ ds }

/-- `scanString` reads a literal that is closed in the same way, whatever stands behind it. -/
theorem scanString_append_of_closed {cs value : List Char} (h : (scanString cs).value = some value)
    (ds : List Char) :
    scanString (cs ++ ds) = { scanString cs with rest := (scanString cs).rest ++ ds } := by
  obtain ⟨body, rest, rfl, hbody⟩ := exists_standsFor h
  rw [List.append_assoc, List.cons_append, hbody.scanString_eq, hbody.scanString_eq]

section

variable {sep : Char} (hsep : IsSeparator sep)

include hsep

/-- `splitSign` in front of a separator. -/
theorem splitSign_separator (cs ds : List Char) :
    splitSign (cs ++ sep :: ds) = ((splitSign cs).1, (splitSign cs).2 ++ sep :: ds) := by
  cases cs with
  | nil => exact splitSign_of_ne hsep.ne.2.1 hsep.ne.2.2.1 ds
  | cons c cs => exact splitSign_append c cs (sep :: ds)

/-- `splitExponent` ends in front of a separator. -/
theorem splitExponent_separator (cs ds : List Char) :
    splitExponent (cs ++ sep :: ds) =
      ((splitExponent cs).1, (splitExponent cs).2 ++ sep :: ds) := by
  cases cs with
  | nil =>
    rw [List.nil_append, splitExponent_cons, if_neg (by simp [hsep.ne])]
    rfl
  | cons mark cs =>
    -- The separator is no mark, no sign and no digit, so every part ends before it.
    rw [List.cons_append, splitExponent_cons, splitExponent_cons, splitSign_separator hsep]
    dsimp only
    rw [takeWhile_separator hsep.isDigit_eq, dropWhile_separator hsep.isDigit_eq]
    split
    · split <;> rfl
    · rfl

/-- `scanNumber` ends in front of a separator. -/
theorem scanNumber_separator (cs ds : List Char) :
    scanNumber (cs ++ sep :: ds) = (scanNumber cs).before (sep :: ds) := by
  unfold scanNumber
  dsimp only
  rw [takeWhile_separator hsep.isNumberChar_eq, dropWhile_separator hsep.isNumberChar_eq,
    splitExponent_separator hsep]
  dsimp only
  split <;> rfl

/-- `startsNumber` does not look behind a separator. -/
theorem startsNumber_separator (c : Char) (cs ds : List Char) :
    startsNumber c (cs ++ sep :: ds) = startsNumber c cs := by
  cases cs with
  | nil => simp [startsNumber, hsep.isDigit_eq]
  | cons d cs => rfl

/-- `scanToken` ends in front of a separator, if it gives a token. -/
theorem scanToken_separator {c : Char} {cs : List Char} {t : Token}
    (h : (scanToken c cs).outcome = .ok t) (ds : List Char) :
    scanToken c (cs ++ sep :: ds) = (scanToken c cs).before (sep :: ds) := by
  have hscan := scans_scanToken c cs
  generalize scanToken c cs = s at h hscan ⊢
  apply Scans.scanToken_eq
  cases hscan with
  | punctuation hc => exact .punctuation hc
  | equal hc hcs => exact .equal hc (by rw [hcs]; rfl)
  -- A separator is no second `=`, so the sign alone stays alone.
  | assign hc hcs =>
    refine .assign hc fun rest hrest => ?_
    cases cs with
    | nil => exact hsep.ne.1 (List.cons.inj hrest).1
    | cons d cs => exact hcs cs (by rw [(List.cons.inj hrest).1])
  | literal hc hvalue =>
    have hclosed := scanString_append_of_closed hvalue (sep :: ds)
    have hscan : Scans c (cs ++ sep :: ds) _ := .literal hc (by rw [hclosed]; exact hvalue)
    rwa [hclosed] at hscan
  -- Nor does a number or a word go on with it.
  | number hpunctuation hequal hquote hnumber =>
    rw [← scanNumber_separator hsep]
    exact .number hpunctuation hequal hquote ((startsNumber_separator hsep c cs ds).trans hnumber)
  | word hpunctuation hequal hquote hnumber hc =>
    have hscan : Scans c (cs ++ sep :: ds) _ :=
      .word hpunctuation hequal hquote ((startsNumber_separator hsep c cs ds).trans hnumber) hc
    rwa [takeWhile_separator hsep.isWordChar_eq, dropWhile_separator hsep.isWordChar_eq] at hscan
  | unterminated | unexpected => cases h

end

/-! ### Text behind a token -/

/-- `dropWhile p` that stops inside of `cs` does so without what follows it. -/
theorem dropWhile_of_append {p : Char → Bool} {cs ds rest : List Char}
    (h : (cs ++ ds).dropWhile p = rest ++ ds) :
    cs.dropWhile p = rest ∧ cs.takeWhile p = (cs ++ ds).takeWhile p := by
  induction cs with
  | nil =>
    -- Nothing is dropped of `ds`, as all of it is left.
    have happend : ds.takeWhile p ++ ds.dropWhile p = ds := List.takeWhile_append_dropWhile
    rw [List.nil_append] at h
    rw [h, ← List.append_assoc, List.append_left_eq_self, List.append_eq_nil_iff] at happend
    exact ⟨happend.2.symm, happend.1.symm⟩
  | cons c cs ih =>
    rw [List.cons_append, List.dropWhile_cons] at h
    rw [List.cons_append, List.dropWhile_cons, List.takeWhile_cons, List.takeWhile_cons]
    split at h
    · next hc =>
      rw [if_pos hc, if_pos hc, if_pos hc]
      exact ⟨(ih h).1, congrArg (c :: ·) (ih h).2⟩
    · next hc =>
      rw [if_neg hc, if_neg hc, if_neg hc]
      exact ⟨List.append_cancel_right h, rfl⟩

/-- `takeWhile p` that takes nothing takes nothing without what follows. -/
theorem isEmpty_takeWhile_of_append {p : Char → Bool} {cs ds : List Char}
    (h : ((cs ++ ds).takeWhile p).isEmpty = true) : (cs.takeWhile p).isEmpty = true := by
  cases cs with
  | nil => rfl
  | cons c cs =>
    rw [List.cons_append, List.takeWhile_cons] at h
    rw [List.takeWhile_cons]
    split at h
    · cases h
    · next hc => rw [if_neg hc, List.isEmpty_nil]

/-- `splitExponent` that stops inside of `cs` does so without what follows it. -/
theorem splitExponent_of_append {cs ds exponent rest : List Char}
    (h : splitExponent (cs ++ ds) = (exponent, rest ++ ds)) :
    splitExponent cs = (exponent, rest) := by
  have hcs : cs = exponent ++ rest := by
    have happend := splitExponent_append (cs ++ ds)
    rw [h, ← List.append_assoc] at happend
    exact (List.append_cancel_right happend).symm
  cases cs with
  | nil =>
    obtain ⟨rfl, rfl⟩ := List.append_eq_nil_iff.mp hcs.symm
    rfl
  | cons mark cs =>
    rw [List.cons_append, splitExponent_cons] at h
    rw [splitExponent_cons]
    split at h
    · next hmark =>
      rw [if_pos hmark]
      cases cs with
      | nil =>
        -- A mark at the end has no digits, so neither had it with a text behind it.
        split at h
        · obtain ⟨rfl, -⟩ := Prod.mk.inj h
          rw [hcs]
          rfl
        · next hdigits =>
          obtain ⟨rfl, -⟩ := Prod.mk.inj h
          have hlength := congrArg List.length hcs
          have hpos : 0 < ((splitSign ([] ++ ds)).2.takeWhile Char.isDigit).length :=
            List.length_pos_iff.mpr (by simpa using hdigits)
          simp only [List.length_append, List.length_cons, List.length_nil] at hlength
          omega
      | cons c cs =>
        rw [splitSign_append] at h
        split at h
        · next hdigits =>
          obtain ⟨rfl, -⟩ := Prod.mk.inj h
          rw [if_pos (isEmpty_takeWhile_of_append hdigits), hcs]
          rfl
        · next hdigits =>
          obtain ⟨rfl, hrest⟩ := Prod.mk.inj h
          obtain ⟨hdrop, htake⟩ := dropWhile_of_append hrest
          rw [htake, if_neg hdigits, hdrop]
    · next hmark =>
      rw [if_neg hmark]
      obtain ⟨rfl, -⟩ := Prod.mk.inj h
      rw [hcs]
      rfl

/-- `scanNumber` that stops inside of `cs` does so without what follows it. -/
theorem scanNumber_of_append {cs ds rest : List Char}
    (h : (scanNumber (cs ++ ds)).rest = rest ++ ds) :
    scanNumber cs = { scanNumber (cs ++ ds) with rest } ∧
      cs.takeWhile isNumberChar = (cs ++ ds).takeWhile isNumberChar := by
  obtain ⟨exponent, hsplit⟩ : ∃ exponent,
      splitExponent ((cs ++ ds).dropWhile isNumberChar) = (exponent, rest ++ ds) := by
    refine ⟨(splitExponent ((cs ++ ds).dropWhile isNumberChar)).1, Prod.ext rfl ?_⟩
    rw [← h]
    unfold scanNumber
    dsimp only
    split <;> rfl
  -- The digits and points end in front of the exponent, and so before the text behind the number.
  have hdrop := splitExponent_append ((cs ++ ds).dropWhile isNumberChar)
  rw [hsplit, ← List.append_assoc] at hdrop
  obtain ⟨hdrop', htake⟩ := dropWhile_of_append hdrop.symm
  have hsplit' : splitExponent (cs.dropWhile isNumberChar) = (exponent, rest) := by
    rw [← hdrop] at hsplit
    rw [hdrop']
    exact splitExponent_of_append hsplit
  refine ⟨?_, htake⟩
  unfold scanNumber
  dsimp only
  rw [hsplit, hsplit', htake]
  dsimp only
  split <;> rfl

/-- `startsNumber` holds without what stands behind the number. -/
theorem startsNumber_of_append {c : Char} {cs ds : List Char} (h : startsNumber c (cs ++ ds) = true)
    (htake : (c :: cs).takeWhile isNumberChar = (c :: cs ++ ds).takeWhile isNumberChar) :
    startsNumber c cs = true := by
  cases cs with
  | cons d cs => exact h
  | nil =>
    by_cases hc : c.isDigit = true
    · simp [startsNumber, hc]
    · -- A point with a digit behind it is no number without the digit.
      cases ds with
      | nil => exact h
      | cons d ds =>
        have hpoint : c = '.' ∧ d.isDigit = true := by simpa [startsNumber, hc] using h
        have hlength := congrArg List.length htake
        simp [isNumberChar, hpoint] at hlength

/-- `scanToken` that gives a token and stops inside of `cs` gives it without what follows. -/
theorem scanToken_of_append {c : Char} {cs ds rest : List Char} {t : Token}
    (h : (scanToken c (cs ++ ds)).outcome = .ok t)
    (hrest : (scanToken c (cs ++ ds)).rest = rest ++ ds) :
    scanToken c cs = { scanToken c (cs ++ ds) with rest } := by
  have hscan := scans_scanToken c (cs ++ ds)
  -- By cases on how the token is read: each part of it ends inside of `cs`.
  generalize scanToken c (cs ++ ds) = s at h hrest hscan ⊢
  apply Scans.scanToken_eq
  cases hscan with
  | punctuation hc =>
    obtain rfl := List.append_cancel_right hrest
    exact .punctuation hc
  | equal hc hcs =>
    subst hrest
    exact .equal hc (List.append_cancel_right hcs)
  | assign hc hcs =>
    obtain rfl := List.append_cancel_right hrest
    exact .assign hc fun rest hrest => hcs (rest ++ ds) (by rw [hrest]; rfl)
  | literal hc hvalue =>
    obtain ⟨body, more, hcs, hbody⟩ := exists_standsFor hvalue
    rw [hcs, hbody.scanString_eq] at hrest ⊢
    obtain rfl : more = rest ++ ds := hrest
    obtain rfl : cs = body ++ '"' :: rest := List.append_cancel_right (hcs.trans (by simp))
    have hscan : Scans c (body ++ '"' :: rest) _ := .literal hc (by rw [hbody.scanString_eq])
    rwa [hbody.scanString_eq] at hscan
  | number hpunctuation hequal hquote hnumber =>
    obtain ⟨hscan, htake⟩ :=
      scanNumber_of_append (show (scanNumber (c :: cs ++ ds)).rest = rest ++ ds from hrest)
    rw [← List.cons_append, ← hscan]
    exact .number hpunctuation hequal hquote (startsNumber_of_append hnumber htake)
  | word hpunctuation hequal hquote hnumber hc =>
    obtain ⟨hdrop, htake⟩ := dropWhile_of_append hrest
    have hnumber' : startsNumber c cs = false := by
      cases cs with
      | nil =>
        have hc : c.isDigit = false := by
          simpa [startsNumber] using (Bool.or_eq_false_iff.mp hnumber).1
        simp [startsNumber, hc]
      | cons d cs => exact hnumber
    have hscan : Scans c cs _ := .word hpunctuation hequal hquote hnumber' hc
    rwa [hdrop, htake] at hscan
  | unterminated | unexpected => cases h

/-- `scanToken` gives the same token with a separator, and whatever it brings, anywhere behind
    it. -/
theorem scanToken_insert {c : Char} {cs ds rest : List Char} {t : Token}
    (h : (scanToken c (cs ++ ds)).outcome = .ok t)
    (hrest : (scanToken c (cs ++ ds)).rest = rest ++ ds) {sep : Char} (hsep : IsSeparator sep)
    (inserted : List Char) :
    scanToken c (cs ++ sep :: inserted ++ ds) =
      { scanToken c (cs ++ ds) with rest := rest ++ sep :: inserted ++ ds } := by
  have hcs := scanToken_of_append h hrest
  have hok : (scanToken c cs).outcome = .ok t := by rw [hcs]; exact h
  rw [List.append_assoc, List.cons_append, scanToken_separator hsep hok, hcs, Scan.before,
    List.append_assoc]
  rfl

end Straightline
