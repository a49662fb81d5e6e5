import Straightline.Proofs.Script.Scanning

/-!
# The inside of string literals

What may stand between the quotes of a literal and what it stands for is a relation of two texts.

* `StandsFor.scanString_append`: a body is read on its own, whatever follows.
* `exists_standsFor`: what is read as a literal is a body and its closing quote.
* `scanToken_quote`, `eq_quote_of_str`: literals are read behind quotes, and nowhere else.
-/

namespace Straightline

/-! ### Bodies of literals -/

/-- `StandsFor body value`: the body of a literal, as it is between the quotes, stands for `value`.
    It has characters, and backslashes each with the character behind it, be it a quote or a
    newline. -/
inductive StandsFor : List Char → List Char → Prop
  | nil : StandsFor [] []
  | plain {c : Char} {body value : List Char} (hquote : c ≠ '"') (hnewline : c ≠ '\n')
    (hbackslash : c ≠ '\\')
      (h : StandsFor body value) : StandsFor (c :: body) (c :: value)
  | escape (c : Char) {body value : List Char} (h : StandsFor body value) :
      StandsFor ('\\' :: c :: body) (unescape c ++ value)

/-- Nothing in front changes nothing. -/
theorem StringScan.cons_nil (s : StringScan) : s.cons [] [] = s := by
  obtain ⟨value, text, rest⟩ := s
  cases value <;> rfl

/-- Two pieces in front of a scan are one. -/
theorem StringScan.cons_cons (s : StringScan) (value value' text text' : List Char) :
    (s.cons value' text').cons value text = s.cons (value ++ value') (text ++ text') := by
  obtain ⟨inner, innerText, rest⟩ := s
  cases inner <;> simp [StringScan.cons]

/-- `scanString` at a character that stands for itself. -/
theorem scanString_cons {c : Char} (hquote : c ≠ '"') (hnewline : c ≠ '\n') (hbackslash : c ≠ '\\')
    (cs : List Char) : scanString (c :: cs) = (scanString cs).cons [c] [c] :=
  scanString.eq_6 c cs hquote hnewline (fun h => absurd h hbackslash)
  (fun _ _ h => absurd h hbackslash)

/-- `scanString` reads a body on its own, and what follows as if it stood there alone. -/
theorem StandsFor.scanString_append {body value : List Char} (h : StandsFor body value)
    (cs : List Char) :
    scanString (body ++ cs) = (scanString cs).cons value body := by
  induction h with
  | nil => exact (StringScan.cons_nil _).symm
  | plain hquote hnewline hbackslash _ ih =>
    rw [List.cons_append, scanString_cons hquote hnewline hbackslash, ih, StringScan.cons_cons]
    rfl
  | escape c _ ih =>
    rw [List.cons_append, List.cons_append, scanString, ih, StringScan.cons_cons]
    rfl

/-- `scanString` reads a body to its closing quote. -/
theorem StandsFor.scanString_eq {body value : List Char} (h : StandsFor body value)
    (rest : List Char) :
    scanString (body ++ '"' :: rest) = ⟨some value, body ++ ['"'], rest⟩ := by
  rw [h.scanString_append]
  simp [scanString, StringScan.cons]

/-- What `scanString` reads is a body and its closing quote. -/
theorem exists_standsFor {cs value : List Char} (h : (scanString cs).value = some value) :
    ∃ body rest, cs = body ++ '"' :: rest ∧ StandsFor body value := by
  fun_induction scanString cs generalizing value with
  | case1 => cases h
  | case2 cs =>
    obtain rfl := Option.some.inj h
    exact ⟨[], cs, rfl, .nil⟩
  | case3 cs => cases h
  | case4 => cases h
  | case5 c cs ih =>
    obtain ⟨inner, hinner, rfl⟩ := Option.map_eq_some_iff.mp h
    obtain ⟨body, rest, rfl, hbody⟩ := ih hinner
    exact ⟨'\\' :: c :: body, rest, rfl, .escape c hbody⟩
  | case6 c cs hquote hnewline hlast hescape ih =>
    obtain ⟨inner, hinner, rfl⟩ := Option.map_eq_some_iff.mp h
    -- A backslash is the last character or has one behind it, and these cases were tried before.
    have hbackslash : c ≠ '\\' := by
      cases cs with
      | nil => exact fun hc => hlast hc rfl
      | cons d cs => exact fun hc => hescape d cs hc rfl
    obtain ⟨body, rest, rfl, hbody⟩ := ih hinner
    exact ⟨c :: body, rest, rfl, .plain hquote hnewline hbackslash hbody⟩

/-! ### Lexemes of literals -/

/-- `scanToken` at a quote is `scanString` behind it. -/
theorem scanToken_quote (cs : List Char) :
    scanToken '"' cs =
      ⟨((scanString cs).value.map fun value => Except.ok (.str (String.ofList value))).getD
          (.error .unterminatedString), '"' :: (scanString cs).text, (scanString cs).rest⟩ := by
  have hnone : punctuation? '"' = none := rfl
  unfold scanToken
  rw [hnone]
  dsimp only
  rw [if_neg (by decide), if_pos rfl]
  cases (scanString cs).value <;> rfl

/-- `scanToken` reads a body between its quotes as a string token. -/
theorem StandsFor.scanToken_eq {body value : List Char} (h : StandsFor body value)
    (rest : List Char) :
    scanToken '"' (body ++ '"' :: rest) =
      ⟨.ok (.str (String.ofList value)), '"' :: (body ++ ['"']), rest⟩ := by
  rw [scanToken_quote, h.scanString_eq]
  rfl

/-- `scanToken` gives a string token only at a quote. -/
theorem eq_quote_of_str {c : Char} {cs : List Char} {text : String}
    (h : (scanToken c cs).outcome = .ok (.str text)) : c = '"' := by
  have hscan := scans_scanToken c cs
  generalize scanToken c cs = s at h hscan
  -- The other ways give other tokens, or faults.
  cases hscan with
  | punctuation hc =>
    obtain rfl := Except.ok.inj h
    unfold punctuation? at hc
    split at hc <;> cases hc
  | equal | assign | unterminated | unexpected => cases h
  | literal hc => exact hc
  | number =>
    rcases scanNumber_outcome (c :: cs) with ⟨value, hnumber⟩ | hnumber <;>
      cases hnumber.symm.trans h
  | word =>
    unfold wordToken at h
    dsimp only at h
    split at h <;> cases h

/-- The text of a string token comes from a body between quotes. -/
theorem exists_standsFor_of_str {c : Char} {cs : List Char} {text : String}
    (h : (scanToken c cs).outcome = .ok (.str text)) :
    c = '"' ∧ ∃ body rest, cs = body ++ '"' :: rest ∧ StandsFor body text.toList := by
  obtain rfl := eq_quote_of_str h
  rw [scanToken_quote] at h
  cases hvalue : (scanString cs).value with
  | none =>
    rw [hvalue] at h
    cases h
  | some value =>
    rw [hvalue] at h
    obtain rfl := Token.str.inj (Except.ok.inj h)
    obtain ⟨body, rest, hcs, hbody⟩ := exists_standsFor hvalue
    exact ⟨rfl, body, rest, hcs, by rwa [String.toList_ofList]⟩

end Straightline
