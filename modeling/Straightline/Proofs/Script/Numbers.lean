import Straightline.Proofs.Double.Constants
import Straightline.Proofs.Script.Spacing

/-!
# Numbers in a source

A number reaches as far as it can: over digits and points, and over an exponent if there is a digit
in it. It fails to be one only if there is a second point.

* `Exponent` and `UnsignedDecimal` are texts with what they stand for, and
  `UnsignedDecimal.roundsTo_iff` says that reading finds the nearest double.
* `splitExponent_cases`: an exponent is cut off iff there is one.
* `Munches` says how far a number reaches, and `Munches.longest` that no text in front with the form
  of a number reaches further.
* `Munches.decimal_or_two_points`: with one point at most the text is a decimal, and with more it
  cannot be read.
* `number_munched` puts this in terms of the calls of a lexer.
-/

namespace Straightline

/-! ### Decimals and what they stand for -/

/-- The number that decimal digits stand for, the last one being that of the units. -/
def digitsValue (cs : List Char) : Nat :=
  Nat.ofDigits 10 (cs.reverse.map fun c => c.toNat - '0'.toNat)

/-- `digitsValue` of an append shifts the first part by the digits of the second. -/
theorem digitsValue_append (cs ds : List Char) :
    digitsValue (cs ++ ds) = digitsValue cs * 10 ^ ds.length + digitsValue ds := by
  simp only [digitsValue, List.reverse_append, List.map_append, Nat.ofDigits_append,
    List.length_map, List.length_reverse]
  ring

/-- `Decimal.ofDigits` computes `digitsValue`. -/
theorem ofDigits_eq_digitsValue (cs : List Char) : Decimal.ofDigits cs = digitsValue cs := by
  induction cs using List.reverseRecOn with
  | nil => rfl
  | append_singleton cs c ih =>
    have hdigit : digitsValue [c] = c.toNat - '0'.toNat := Nat.ofDigits_singleton
    rw [digitsValue_append, hdigit, ← ih, Decimal.ofDigits, Decimal.ofDigits, List.foldl_append]
    show 10 * _ + _ = _ * 10 ^ 1 + _
    rw [pow_one, Nat.mul_comm]

/-- A power of ten behind the digits of a number: a mark, possibly a sign, and digits, at least
    one. -/
structure Exponent where
  mark : Char
  sign : Option Char
  digits : List Char
  mark_eq : mark = 'e' ∨ mark = 'E'
  sign_eq : ∀ c ∈ sign, c = '+' ∨ c = '-'
  digits_ne_nil : digits ≠ []
  isDigit : ∀ c ∈ digits, c.isDigit = true

namespace Exponent

variable (x : Exponent)

/-- The exponent as it is written. -/
def text : List Char := x.mark :: (x.sign.toList ++ x.digits)

/-- The power of ten that the exponent stands for. -/
def value : Int := if x.sign = some '-' then -(digitsValue x.digits : Int) else digitsValue x.digits

end Exponent

/-- Digits, possibly with a point among them, and possibly an exponent. There is at least one
    digit. -/
structure UnsignedDecimal where
  whole : List Char
  /-- The digits behind the point, if there is one. -/
  fraction : Option (List Char)
  exponent : Option Exponent
  whole_isDigit : ∀ c ∈ whole, c.isDigit = true
  fraction_isDigit : ∀ ds ∈ fraction, ∀ c ∈ ds, c.isDigit = true
  ne_nil : whole ++ fraction.getD [] ≠ []

namespace UnsignedDecimal

variable (n : UnsignedDecimal)

/-- The digits and the point, as they are written. -/
def mantissa : List Char := n.whole ++ (n.fraction.map ('.' :: ·)).getD []

/-- The decimal as it is written. -/
def text : List Char := n.mantissa ++ (n.exponent.map Exponent.text).getD []

/-- The number that the decimal stands for. -/
def value : ℚ :=
  (digitsValue n.whole + digitsValue (n.fraction.getD []) / 10 ^ (n.fraction.getD []).length) *
    10 ^ (n.exponent.map Exponent.value).getD 0

/-- `n.RoundsTo d`: the double `d` is nearest to the decimal, and is not negative. -/
def RoundsTo (d : Double) : Prop := d.negative = false ∧ Double.IsNearest n.value d.magnitude

/-- `n.value` is the number of all digits times the power of ten of the last one. -/
theorem value_eq :
    n.value = Decimal.ofDigits (n.whole ++ n.fraction.getD []) *
      (10 : ℚ) ^ ((n.exponent.map Exponent.value).getD 0 - (n.fraction.getD []).length) := by
  rw [value, ofDigits_eq_digitsValue, digitsValue_append, zpow_sub₀ (by norm_num), zpow_natCast]
  push_cast
  field_simp

end UnsignedDecimal

/-! ### Reading decimals -/

/-- What an exponent begins with is no digit and no point. -/
theorem Exponent.mark_ne (x : Exponent) : x.mark.isDigit = false ∧ x.mark ≠ '.' := by
  rcases x.mark_eq with h | h <;> rw [h] <;> decide

/-- A digit is neither a sign nor a point. -/
theorem ne_of_isDigit {c : Char} (h : c.isDigit = true) : c ≠ '+' ∧ c ≠ '-' ∧ c ≠ '.' := by
  refine ⟨?_, ?_, ?_⟩ <;> rintro rfl <;> cases h

/-- `readExponent?` reads an exponent as `x.value`. -/
theorem Exponent.readExponent?_text (x : Exponent) :
    Numeral.readExponent? x.text = some x.value := by
  have hdigits := Numeral.readDigits?_eq x.digits_ne_nil x.isDigit
  obtain ⟨c, ds, hds⟩ := List.exists_cons_of_ne_nil x.digits_ne_nil
  -- Without a sign the first character is a digit, so none is read.
  obtain ⟨hplus, hminus, -⟩ := ne_of_isDigit (x.isDigit c (hds ▸ List.mem_cons_self))
  rw [ofDigits_eq_digitsValue] at hdigits
  unfold text value
  cases hsign : x.sign with
  | none =>
    rw [hds] at hdigits ⊢
    simp [Numeral.readExponent?, Numeral.readInt?, x.mark_eq, hplus, hminus, hdigits]
  | some sign => rcases x.sign_eq sign hsign with rfl | rfl <;>
      simp [Numeral.readExponent?, Numeral.readInt?, x.mark_eq, hdigits]

namespace UnsignedDecimal

variable (n : UnsignedDecimal)

/-- What follows the digits and the point. -/
def tail : List Char := (n.exponent.map Exponent.text).getD []

/-- `readExponent?` reads `n.tail` as the exponent of the decimal, or as zero. -/
theorem readExponent?_tail :
    Numeral.readExponent? n.tail = some ((n.exponent.map Exponent.value).getD 0) := by
  unfold tail
  cases n.exponent with
  | none => rfl
  | some x => exact x.readExponent?_text

/-- `n.tail` starts with no digit and no point. -/
theorem head?_tail {c : Char} (h : c ∈ n.tail.head?) : c.isDigit = false ∧ c ≠ '.' := by
  unfold tail at h
  cases hexponent : n.exponent with
  | none =>
    rw [hexponent] at h
    cases h
  | some x =>
    rw [hexponent] at h
    obtain rfl : x.mark = c := Option.some.inj h
    exact x.mark_ne

end UnsignedDecimal

/-- Digits end where something else begins. -/
theorem takeWhile_dropWhile_of_head? {p : Char → Bool} {ds tail : List Char}
    (hds : ∀ c ∈ ds, p c = true) (htail : ∀ c ∈ tail.head?, p c = false) :
    (ds ++ tail).takeWhile p = ds ∧ (ds ++ tail).dropWhile p = tail := by
  rw [List.takeWhile_append_of_pos hds, List.dropWhile_append_of_pos hds]
  cases tail with
  | nil => simp
  | cons c tail => simp [htail c rfl]

/-- `dropWhile p` stops where `p` fails. -/
theorem eq_false_of_head?_dropWhile {p : Char → Bool} {cs : List Char} {c : Char}
    (h : c ∈ (cs.dropWhile p).head?) :
    p c = false := by
  have hnot := List.head?_dropWhile_not p cs
  rw [h] at hnot
  exact hnot

namespace Numeral

variable {negative : Bool} {whole fraction tail : List Char}

/-- `readUnsigned?` on digits without a point. -/
theorem readUnsigned?_whole (hwhole : ∀ c ∈ whole, c.isDigit = true) (hne : whole ≠ [])
    (htail : ∀ c ∈ tail.head?, c.isDigit = false ∧ c ≠ '.') :
    readUnsigned? negative (whole ++ tail) =
      (readExponent? tail).map fun e => ⟨negative, Decimal.ofDigits whole, e⟩ := by
  obtain ⟨htake, hdrop⟩ := takeWhile_dropWhile_of_head? hwhole fun c hc => (htail c hc).1
  cases tail with
  | nil =>
    rw [List.append_nil] at htake hdrop ⊢
    simp [readUnsigned?, htake, hdrop, hne]
  | cons c tail => simp [readUnsigned?, htake, hdrop, hne, (htail c rfl).2]

/-- `readUnsigned?` on digits around a point, of which there has to be at least one. -/
theorem readUnsigned?_point (hwhole : ∀ c ∈ whole, c.isDigit = true)
    (hfraction : ∀ c ∈ fraction, c.isDigit = true) (htail : ∀ c ∈ tail.head?, c.isDigit = false) :
    readUnsigned? negative (whole ++ '.' :: (fraction ++ tail)) =
      if whole = [] ∧ fraction = [] then none
      else (readExponent? tail).map fun e =>
          ⟨negative, Decimal.ofDigits (whole ++ fraction), e - fraction.length⟩ := by
  have hpoint : ∀ c ∈ ('.' :: (fraction ++ tail)).head?, Char.isDigit c = false := by
    rintro c hc
    cases hc
    rfl
  obtain ⟨htake, hdrop⟩ := takeWhile_dropWhile_of_head? hwhole hpoint
  obtain ⟨htake', hdrop'⟩ := takeWhile_dropWhile_of_head? hfraction htail
  simp [readUnsigned?, htake, hdrop, htake', hdrop']

end Numeral

/-- `readUnsigned?` reads a decimal as its digits and the power of ten of the last one. -/
theorem UnsignedDecimal.readUnsigned?_text (n : UnsignedDecimal) :
    Numeral.readUnsigned? false n.text =
      some ⟨false, Decimal.ofDigits (n.whole ++ n.fraction.getD []),
        (n.exponent.map Exponent.value).getD 0 - (n.fraction.getD []).length⟩ := by
  have hne := n.ne_nil
  have htext : n.text = n.whole ++ ((n.fraction.map ('.' :: ·)).getD [] ++ n.tail) :=
    List.append_assoc _ _ _
  rw [htext]
  -- With a point the digits behind it may be missing, without one the number goes on with `e`.
  cases hfraction : n.fraction with
  | none =>
    rw [hfraction, Option.getD_none, List.append_nil] at hne
    show Numeral.readUnsigned? false (n.whole ++ n.tail) = _
    rw [Numeral.readUnsigned?_whole n.whole_isDigit hne fun _ => n.head?_tail, n.readExponent?_tail]
    simp
  | some ds =>
    rw [hfraction, Option.getD_some] at hne
    show Numeral.readUnsigned? false (n.whole ++ '.' :: (ds ++ n.tail)) = _
    rw [Numeral.readUnsigned?_point n.whole_isDigit (n.fraction_isDigit ds hfraction)
      fun c hc => (n.head?_tail hc).1, if_neg (by simpa using hne), n.readExponent?_tail]
    rfl

/-- `Double.read?` is `readUnsigned?` on a text that starts with a digit or a point. -/
theorem Double.read?_of_isNumberChar {c : Char} (hc : isNumberChar c = true) (cs : List Char) :
    Double.read? (c :: cs) = (Numeral.readUnsigned? false (c :: cs)).map Numeral.toDouble := by
  have hminus : ∀ ds, c :: cs ≠ '-' :: ds := by
    rintro ds h
    rw [(List.cons.inj h).1] at hc
    cases hc
  rw [Double.read?, Numeral.read?.eq_2 _ hminus]

/-- A decimal begins with a digit or a point. -/
theorem UnsignedDecimal.exists_cons (n : UnsignedDecimal) :
    ∃ c cs, n.text = c :: cs ∧ isNumberChar c = true := by
  have hne := n.ne_nil
  rw [text, mantissa]
  cases hwhole : n.whole with
  | cons c cs =>
    have hc := n.whole_isDigit c (hwhole ▸ List.mem_cons_self)
    exact ⟨c, _, rfl, by simp [isNumberChar, hc]⟩
  -- Nothing in front of the point, so there is a point.
  | nil =>
    cases hfraction : n.fraction with
    | none => simp [hwhole, hfraction] at hne
    | some ds => exact ⟨'.', _, rfl, rfl⟩

/-- `n.RoundsTo d` iff `Double.read? n.text = some d`. -/
theorem UnsignedDecimal.roundsTo_iff (n : UnsignedDecimal) (d : Double) :
    n.RoundsTo d ↔ Double.read? n.text = some d := by
  obtain ⟨c, cs, htext, hc⟩ := n.exists_cons
  rw [htext, Double.read?_of_isNumberChar hc, ← htext, n.readUnsigned?_text, Option.map_some,
    Option.some.injEq, RoundsTo, n.value_eq]
  exact Double.isNearest_iff_ofDecimal_eq

/-- `Double.read?` reads every decimal. -/
theorem UnsignedDecimal.exists_read? (n : UnsignedDecimal) : ∃ d, Double.read? n.text = some d := by
  obtain ⟨c, cs, htext, hc⟩ := n.exists_cons
  rw [htext, Double.read?_of_isNumberChar hc, ← htext, n.readUnsigned?_text]
  exact ⟨_, rfl⟩

/-- `Double.read?` reads no text with a second point. -/
theorem Double.read?_of_two_points {cs ds tail : List Char} (hcs : ∀ c ∈ cs, c.isDigit = true)
    (hds : ∀ c ∈ ds, c.isDigit = true) :
    Double.read? (cs ++ '.' :: (ds ++ '.' :: tail)) = none := by
  -- Behind the fraction only an exponent is read, and the second point starts none.
  have hpoint : ∀ c ∈ ('.' :: tail).head?, Char.isDigit c = false := by
    rintro c hc
    cases hc
    rfl
  have hunsigned : Numeral.readUnsigned? false (cs ++ '.' :: (ds ++ '.' :: tail)) = none := by
    rw [Numeral.readUnsigned?_point hcs hds hpoint]
    split <;> rfl
  cases cs with
  | nil =>
    rw [List.nil_append, Double.read?_of_isNumberChar rfl, ← List.nil_append ('.' :: _), hunsigned,
      Option.map_none]
  | cons c cs =>
    have hc : isNumberChar c = true := by simp [isNumberChar, hcs c List.mem_cons_self]
    rw [List.cons_append, Double.read?_of_isNumberChar hc, ← List.cons_append, hunsigned,
      Option.map_none]

/-! ### How far a number reaches -/

/-- `splitSign` splits off a sign, if there is one. -/
theorem splitSign_cases (cs : List Char) :
    ∃ sign : Option Char, (splitSign cs).1 = sign.toList ∧ cs = sign.toList ++ (splitSign cs).2 ∧
      ∀ c ∈ sign, c = '+' ∨ c = '-' := by
  unfold splitSign
  split
  · exact ⟨some '+', rfl, rfl, by simp⟩
  · exact ⟨some '-', rfl, rfl, by simp⟩
  · exact ⟨none, rfl, rfl, by simp⟩

/-- The sign of an exponent is split off. -/
theorem Exponent.splitSign_eq (x : Exponent) (rest : List Char) :
    splitSign (x.sign.toList ++ x.digits ++ rest) = (x.sign.toList, x.digits ++ rest) := by
  obtain ⟨c, ds, hds⟩ := List.exists_cons_of_ne_nil x.digits_ne_nil
  obtain ⟨hplus, hminus, -⟩ := ne_of_isDigit (x.isDigit c (hds ▸ List.mem_cons_self))
  cases hsign : x.sign with
  | none =>
    rw [hds]
    exact splitSign_of_ne hplus hminus _
  | some sign => rcases x.sign_eq sign hsign with rfl | rfl <;> rfl

/-- `splitExponent` splits off an exponent with all its digits iff there is one. -/
theorem splitExponent_cases (cs : List Char) :
    (∃ x : Exponent, (splitExponent cs).1 = x.text ∧
      ∀ c ∈ (splitExponent cs).2.head?, c.isDigit = false) ∨
      (splitExponent cs).1 = [] ∧ ∀ x : Exponent, ¬ x.text <+: cs := by
  cases cs with
  | nil => exact .inr ⟨rfl, fun x h => by simp [Exponent.text] at h⟩
  | cons mark cs =>
    rw [splitExponent_cons]
    split
    · next hmark =>
      split
      · next hempty =>
        refine .inr ⟨rfl, fun x hx => ?_⟩
        obtain ⟨rest, hrest⟩ := hx
        have hcs : cs = x.sign.toList ++ x.digits ++ rest := (List.cons.inj hrest).2.symm
        -- The digits of an exponent would be found.
        rw [hcs, x.splitSign_eq, List.takeWhile_append_of_pos x.isDigit] at hempty
        simp [x.digits_ne_nil] at hempty
      · next hdigits =>
        obtain ⟨sign, hsign, -, hsign'⟩ := splitSign_cases cs
        refine .inl ⟨⟨mark, sign,
          (splitSign cs).2.takeWhile Char.isDigit, by simpa using hmark, hsign',
          by simpa using hdigits, fun c hc => List.mem_takeWhile_imp hc⟩, ?_, fun c hc => ?_⟩
        · rw [hsign]
          rfl
        · exact eq_false_of_head?_dropWhile hc
    · next hmark =>
      refine .inr ⟨rfl, fun x hx => hmark ?_⟩
      obtain ⟨rest, hrest⟩ := hx
      obtain ⟨rfl, -⟩ := List.cons.inj hrest
      simpa using x.mark_eq

/-- `IsNumberLike text`: the text has digits and points, at least one, and possibly an exponent. -/
def IsNumberLike (text : List Char) : Prop :=
  ∃ mantissa exponent, text = mantissa ++ exponent ∧ mantissa ≠ [] ∧
    (∀ c ∈ mantissa, c.isDigit = true ∨ c = '.') ∧
    (exponent = [] ∨ ∃ x : Exponent, exponent = x.text)

/-- `Munches cs mantissa exponent rest`: the number at the front of `cs` reaches over all digits
    and points, and over an exponent with all its digits iff there is one. What is behind it is
    `rest`. -/
structure Munches (cs mantissa exponent rest : List Char) : Prop where
  append : cs = mantissa ++ exponent ++ rest
  mantissa_all : ∀ c ∈ mantissa, c.isDigit = true ∨ c = '.'
  mantissa_end : ∀ c ∈ (exponent ++ rest).head?, c.isDigit = false ∧ c ≠ '.'
  exponent_cases : (∃ x : Exponent, exponent = x.text ∧ ∀ c ∈ rest.head?, c.isDigit = false) ∨
    exponent = [] ∧ ¬ ∃ x : Exponent, x.text <+: rest

/-- `isNumberChar` holds of digits and the point. -/
theorem isNumberChar_iff {c : Char} : isNumberChar c = true ↔ c.isDigit = true ∨ c = '.' := by
  simp [isNumberChar]

/-- `takeWhile isNumberChar` and then `splitExponent` reach as far as `Munches` says. -/
theorem munches_splitExponent (cs : List Char) :
    Munches cs (cs.takeWhile isNumberChar) (splitExponent (cs.dropWhile isNumberChar)).1
      (splitExponent (cs.dropWhile isNumberChar)).2 := by
  have happend := splitExponent_append (cs.dropWhile isNumberChar)
  refine ⟨?_, fun c hc => isNumberChar_iff.mp (List.mem_takeWhile_imp hc), fun c hc => ?_, ?_⟩
  · rw [List.append_assoc, happend, List.takeWhile_append_dropWhile]
  · rw [happend] at hc
    simpa [isNumberChar] using eq_false_of_head?_dropWhile hc
  · rcases splitExponent_cases (cs.dropWhile isNumberChar) with hexponent | ⟨hnil, hnone⟩
    · exact .inl hexponent
    · rw [hnil, List.nil_append] at happend
      rw [happend]
      exact .inr ⟨hnil, not_exists.mpr hnone⟩

/-- `scanNumber` covers what `Munches` says, and reads it with `Double.read?`. -/
theorem exists_munches (cs : List Char) :
    ∃ mantissa exponent rest, Munches cs mantissa exponent rest ∧
      ((∃ d, Double.read? (mantissa ++ exponent) = some d ∧
          scanNumber cs = ⟨.ok (.number d), mantissa ++ exponent, rest⟩) ∨
        Double.read? (mantissa ++ exponent) = none ∧
          scanNumber cs = ⟨.error .invalidNumber, mantissa ++ exponent, rest⟩) := by
  refine ⟨_, _, _, munches_splitExponent cs, ?_⟩
  unfold scanNumber
  dsimp only
  split
  · next d hd => exact .inl ⟨d, hd, rfl⟩
  · next hd => exact .inr ⟨hd, rfl⟩

/-- Of two ways to cut a text, one that stops only where it has to reaches as far as the other. -/
theorem eq_append_takeWhile {p : Char → Bool} {ds tail ds' tail' : List Char}
    (h : ds ++ tail = ds' ++ tail') (hds : ∀ c ∈ ds, p c = true) (hds' : ∀ c ∈ ds', p c = true)
    (htail : ∀ c ∈ tail.head?, p c = false) :
    ds = ds' ++ tail'.takeWhile p := by
  rw [← List.takeWhile_append_of_pos hds', ← h]
  exact (takeWhile_dropWhile_of_head? hds htail).1.symm

/-- Of two exponents in front of a text, one with all digits that follow reaches as far as the
    other. -/
theorem Exponent.prefix_of_append {x y : Exponent} {rest rest' : List Char}
    (h : y.text ++ rest = x.text ++ rest') (hrest : ∀ c ∈ rest.head?, c.isDigit = false) :
    x.text <+: y.text := by
  obtain ⟨hmark, hcs⟩ := List.cons.inj h
  have hsplit := congrArg splitSign hcs
  replace hsplit : splitSign (y.sign.toList ++ y.digits ++ rest) =
      splitSign (x.sign.toList ++ x.digits ++ rest') :=
    hsplit
  rw [y.splitSign_eq, x.splitSign_eq, Prod.mk.injEq] at hsplit
  have hdigits := eq_append_takeWhile hsplit.2 y.isDigit x.isDigit hrest
  refine ⟨rest'.takeWhile Char.isDigit, ?_⟩
  rw [text, text, hmark, hsplit.1, hdigits, List.cons_append, List.append_assoc]

namespace Munches

variable {cs mantissa exponent rest : List Char}

/-- No text at the front of `cs` that `IsNumberLike` is longer. -/
theorem longest (h : Munches cs mantissa exponent rest) {text : List Char} (hfront : text <+: cs)
    (htext : IsNumberLike text) : text <+: mantissa ++ exponent := by
  obtain ⟨mantissa', exponent', rfl, -, hmantissa', hexponent'⟩ := htext
  obtain ⟨rest', hrest'⟩ := hfront
  have hcs : mantissa ++ (exponent ++ rest) = mantissa' ++ (exponent' ++ rest') := by
    rw [← List.append_assoc, ← List.append_assoc, hrest', h.append]
  have hend : ∀ c ∈ (exponent ++ rest).head?, isNumberChar c = false := by
    intro c hc
    obtain ⟨hdigit, hpoint⟩ := h.mantissa_end c hc
    simp [isNumberChar, hdigit, hpoint]
  have hmantissa := eq_append_takeWhile hcs (fun c hc => isNumberChar_iff.mpr (h.mantissa_all c hc))
    (fun c hc => isNumberChar_iff.mpr (hmantissa' c hc)) hend
  rcases hexponent' with rfl | ⟨x, rfl⟩
  · rw [List.append_nil, hmantissa, List.append_assoc]
    exact List.prefix_append _ _
  · -- An exponent begins behind all digits and points, so both texts have the same ones.
    have hmark : isNumberChar x.mark = false := by simp [isNumberChar, x.mark_ne]
    have hnil : (x.text ++ rest').takeWhile isNumberChar = [] :=
      List.takeWhile_cons_of_neg (by simp [hmark])
    rw [hnil, List.append_nil] at hmantissa
    subst hmantissa
    have htail := List.append_cancel_left hcs
    rcases h.exponent_cases with ⟨y, rfl, hrest⟩ | ⟨rfl, hnone⟩
    · exact (List.prefix_append_right_inj _).mpr (Exponent.prefix_of_append htail hrest)
    · exact absurd ⟨x, rest', htail.symm⟩ hnone

end Munches

/-! ### What a number is worth -/

/-- Digits and points are digits only, or there is a first point. -/
theorem isDigit_or_exists_point {cs : List Char} (h : ∀ c ∈ cs, c.isDigit = true ∨ c = '.') :
    (∀ c ∈ cs, c.isDigit = true) ∨
      ∃ ds rest, cs = ds ++ '.' :: rest ∧ (∀ c ∈ ds, c.isDigit = true) ∧
        ∀ c ∈ rest, c.isDigit = true ∨ c = '.' := by
  induction cs with
  | nil => exact .inl (by simp)
  | cons c cs ih =>
    obtain ⟨hc, hcs⟩ := List.forall_mem_cons.mp h
    rcases hc with hc | rfl
    · rcases ih hcs with hdigits | ⟨ds, rest, rfl, hds, hrest⟩
      · exact .inl (List.forall_mem_cons.mpr ⟨hc, hdigits⟩)
      · exact .inr ⟨c :: ds, rest, rfl, List.forall_mem_cons.mpr ⟨hc, hds⟩, hrest⟩
    · exact .inr ⟨[], cs, rfl, by simp, hcs⟩

/-- There is no point among digits. -/
theorem count_point_of_isDigit {cs : List Char} (h : ∀ c ∈ cs, c.isDigit = true) :
    cs.count '.' = 0 :=
  List.count_eq_zero.mpr fun hmem => absurd rfl (ne_of_isDigit (h _ hmem)).2.2

/-- `StartsNumber cs`: the text begins with a digit, or with a point and a digit. -/
def StartsNumber (cs : List Char) : Prop :=
  (∃ c rest, cs = c :: rest ∧ c.isDigit = true) ∨ ∃ c rest, cs = '.' :: c :: rest ∧ c.isDigit = true

namespace Munches

variable {cs mantissa exponent rest : List Char}

/-- What is covered behind the digits and points is an exponent or nothing. -/
theorem exists_exponent (h : Munches cs mantissa exponent rest) :
    ∃ x : Option Exponent, exponent = (x.map Exponent.text).getD [] := by
  rcases h.exponent_cases with ⟨x, hx, -⟩ | ⟨hnil, -⟩
  · exact ⟨some x, hx⟩
  · exact ⟨none, hnil⟩

/-- There is no point in it. -/
theorem count_exponent (h : Munches cs mantissa exponent rest) : exponent.count '.' = 0 := by
  rcases h.exponent_cases with ⟨x, rfl, -⟩ | ⟨rfl, -⟩
  · have hsign : x.sign.toList.count '.' = 0 := by
      rw [List.count_eq_zero, Option.mem_toList]
      intro hmem
      rcases x.sign_eq _ hmem with h | h <;> cases h
    rw [Exponent.text, List.count_cons_of_ne x.mark_ne.2, List.count_append, hsign,
      count_point_of_isDigit x.isDigit]
  · rfl

/-- There is a digit in front of the exponent if `StartsNumber cs`. -/
theorem exists_digit (h : Munches cs mantissa exponent rest) (hstart : StartsNumber cs) :
    ∃ c ∈ mantissa, c.isDigit = true := by
  have hcs := h.append
  have hend := h.mantissa_end
  rw [List.append_assoc] at hcs
  generalize exponent ++ rest = tail at hcs hend
  -- The digits and points do not end in front of a digit or a point.
  have hnot : ∀ {c : Char} {cs' : List Char}, tail = c :: cs' → c.isDigit ≠ true ∧ c ≠ '.' := by
    rintro c cs' rfl
    simpa using hend c rfl
  rcases hstart with ⟨c, cs', rfl, hc⟩ | ⟨c, cs', rfl, hc⟩
  · cases mantissa with
    | nil => exact absurd hc (hnot hcs.symm).1
    | cons d mantissa =>
      obtain ⟨rfl, -⟩ := List.cons.inj hcs
      exact ⟨c, List.mem_cons_self, hc⟩
  · rcases mantissa with _ | ⟨d, _ | ⟨d', mantissa⟩⟩
    · exact absurd rfl (hnot hcs.symm).2
    · exact absurd hc (hnot (List.cons.inj hcs).2.symm).1
    · obtain ⟨-, hcs⟩ := List.cons.inj hcs
      obtain ⟨rfl, -⟩ := List.cons.inj hcs
      exact ⟨c, by simp, hc⟩

/-- With one point at most, what is covered is an `UnsignedDecimal`. With more, `Double.read?` reads
    nothing. -/
theorem decimal_or_two_points (h : Munches cs mantissa exponent rest) (hstart : StartsNumber cs) :
    ((mantissa ++ exponent).count '.' < 2 ∧ ∃ n : UnsignedDecimal, n.text = mantissa ++ exponent) ∨
      2 ≤ (mantissa ++ exponent).count '.' ∧ Double.read? (mantissa ++ exponent) = none := by
  obtain ⟨d, hd, hdigit⟩ := h.exists_digit hstart
  obtain ⟨x, hx⟩ := h.exists_exponent
  rw [List.count_append, h.count_exponent, Nat.add_zero]
  rcases isDigit_or_exists_point h.mantissa_all with
    hwhole | ⟨whole, fraction, rfl, hwhole, hfraction⟩
  · have hne : mantissa ++ (none : Option (List Char)).getD [] ≠ [] := by
      rw [Option.getD_none, List.append_nil]
      exact List.ne_nil_of_mem hd
    refine .inl ⟨?_, ⟨mantissa, none, x, hwhole, by simp, hne⟩, ?_⟩
    · rw [count_point_of_isDigit hwhole]
      omega
    · show mantissa ++ [] ++ (x.map Exponent.text).getD [] = _
      rw [List.append_nil, hx]
  · rw [List.count_append, List.count_cons_self, count_point_of_isDigit hwhole]
    rcases isDigit_or_exists_point hfraction with hfraction | ⟨ds, tail, rfl, hds, -⟩
    · have hne : whole ++ (some fraction).getD [] ≠ [] := by
        -- A point alone would not be a start.
        rintro hnil
        obtain ⟨rfl, rfl⟩ := List.append_eq_nil_iff.mp hnil
        obtain rfl := List.mem_singleton.mp hd
        cases hdigit
      refine .inl ⟨?_, ⟨whole, some fraction, x, hwhole, by simpa using hfraction, hne⟩, ?_⟩
      · rw [count_point_of_isDigit hfraction]
        omega
      · exact congrArg (whole ++ '.' :: fraction ++ ·) hx.symm
    · refine .inr ⟨?_, ?_⟩
      · rw [List.count_append, List.count_cons_self]
        omega
      · have htext : whole ++ '.' :: (ds ++ '.' :: tail) ++ exponent =
            whole ++ '.' :: (ds ++ '.' :: (tail ++ exponent)) := by
          simp
        rw [htext]
        exact Double.read?_of_two_points hwhole hds

end Munches

/-! ### Calls -/

namespace StartsNumber

variable {c : Char} {cs : List Char}

/-- What `StartsNumber` begins with `isNumberChar`. -/
theorem isNumberChar_eq (h : StartsNumber (c :: cs)) : isNumberChar c = true := by
  rcases h with ⟨d, rest, hcs, hd⟩ | ⟨d, rest, hcs, -⟩
  · exact isNumberChar_iff.mpr (.inl ((List.cons.inj hcs).1 ▸ hd))
  · exact isNumberChar_iff.mpr (.inr (List.cons.inj hcs).1)

/-- The test `startsNumber` of the lexer succeeds. -/
theorem startsNumber_eq (h : StartsNumber (c :: cs)) : startsNumber c cs = true := by
  rcases h with ⟨d, rest, hcs, hd⟩ | ⟨d, rest, hcs, hd⟩ <;>
      obtain ⟨rfl, rfl⟩ := List.cons.inj hcs <;>
    simp [startsNumber, hd]

/-- `scanToken` is `scanNumber` there: nothing else begins so. -/
theorem scanToken_eq (h : StartsNumber (c :: cs)) : scanToken c cs = scanNumber (c :: cs) := by
  have hc := h.isNumberChar_eq
  have hpunctuation : punctuation? c = none := by
    unfold punctuation?
    split
    -- No punctuation is a digit or a point.
    case h_13 => rfl
    all_goals cases hc
  refine Scans.scanToken_eq (.number hpunctuation ?_ ?_ h.startsNumber_eq)
  · rintro rfl
    cases hc
  · rintro rfl
    cases hc

/-- No blank and no comment begins so. -/
theorem splitTrivia_eq (h : StartsNumber (c :: cs)) :
    splitTrivia false (c :: cs) = ([], c :: cs) := by
  have hc := h.isNumberChar_eq
  have hblank : isBlank c = false := by
    rw [← Bool.not_eq_true, isBlank_iff]
    rintro (rfl | rfl | rfl) <;> cases hc
  have hhash : c ≠ '#' := by
    rintro rfl
    cases hc
  simp [splitTrivia, hblank, hhash]

end StartsNumber

/-- Where `StartsNumber` holds, a call of a lexer finds a number. It is the longest run of digits
    and points there, and behind it an exponent, if at least one digit follows the mark or its sign.
    With two points or more the number is invalid, and otherwise it is the double nearest to the
    decimal. -/
theorem number_munched (source : String) {before gap cs : List Char}
    (hsource : source.toList = before ++ (gap ++ cs)) (hgap : IsGap gap cs)
    (hstart : StartsNumber cs) :
    ∃ mantissa exponent rest outcome, Munches cs mantissa exponent rest ∧
      IsNumberLike (mantissa ++ exponent) ∧
      (∀ text, text <+: cs → IsNumberLike text → text <+: mantissa ++ exponent) ∧
      nextLexeme? source.toList (byteLength before) =
        some (.lexeme ⟨outcome, mantissa ++ exponent, byteLength (before ++ gap)⟩,
          byteLength (before ++ gap ++ (mantissa ++ exponent))) ∧
      (2 ≤ (mantissa ++ exponent).count '.' → outcome = .error .invalidNumber) ∧
      ((mantissa ++ exponent).count '.' < 2 →
        ∃ (n : UnsignedDecimal) (d : Double), n.text = mantissa ++ exponent ∧
        outcome = .ok (.number d) ∧ ∀ d', n.RoundsTo d' ↔ d' = d) := by
  obtain ⟨c, cs, rfl⟩ : ∃ c cs', cs = c :: cs' := by
    rcases hstart with ⟨c, rest, rfl, -⟩ | ⟨c, rest, rfl, -⟩ <;> exact ⟨_, _, rfl⟩
  have hsplit := hgap.splitTrivia_eq
  rw [hstart.splitTrivia_eq, List.append_nil] at hsplit
  have hcall : nextLexeme? (before ++ _) (byteLength before) = _ := nextLexeme?_of_scan hsplit
  rw [← hsource, hstart.scanToken_eq] at hcall
  obtain ⟨mantissa, exponent, rest, hmunch, hscan⟩ := exists_munches (c :: cs)
  have hlike : IsNumberLike (mantissa ++ exponent) := by
    obtain ⟨d, hd, -⟩ := hmunch.exists_digit hstart
    refine ⟨mantissa, exponent, rfl, List.ne_nil_of_mem hd, hmunch.mantissa_all, ?_⟩
    rcases hmunch.exponent_cases with ⟨x, hx, -⟩ | ⟨hnil, -⟩
    · exact .inr ⟨x, hx⟩
    · exact .inl hnil
  refine ⟨mantissa, exponent, rest, (scanNumber (c :: cs)).outcome, hmunch, hlike,
    fun _ => hmunch.longest, ?_, ?_⟩
  · rcases hscan with ⟨d, -, hscan⟩ | ⟨-, hscan⟩ <;> rw [hcall, hscan]
  · -- What was scanned is read as a decimal, or has too many points.
    rcases hmunch.decimal_or_two_points hstart with ⟨hlt, n, hn⟩ | ⟨hle, hnone⟩
    · obtain ⟨d, hd⟩ := n.exists_read?
      refine ⟨fun hle => absurd hle (by omega), fun _ => ⟨n, d, hn, ?_, fun d' => ?_⟩⟩
      · rcases hscan with ⟨d', hd', hscan⟩ | ⟨hnone, -⟩
        · rw [hscan, Option.some.inj (hd.symm.trans (hn ▸ hd'))]
        · rw [← hn, hd] at hnone
          cases hnone
      · rw [n.roundsTo_iff, hd, Option.some.injEq, eq_comm]
    · refine ⟨fun _ => ?_, fun hlt => absurd hlt (by omega)⟩
      rcases hscan with ⟨d, hd, -⟩ | ⟨-, hscan⟩
      · rw [hnone] at hd
        cases hd
      · rw [hscan]

/-- The second mark has no digit behind its sign, so the number ends in front of it. -/
theorem number_munched_sample :
    IsGap ['\t'] ".25E-1e+".toList ∧ StartsNumber ".25E-1e+".toList ∧
      ∃ mantissa exponent rest outcome, Munches ".25E-1e+".toList mantissa exponent rest ∧
        nextLexeme? "é\t.25E-1e+".toList 2 =
          some (.lexeme ⟨outcome, mantissa ++ exponent, 3⟩,
            byteLength ("é\t".toList ++ (mantissa ++ exponent))) := by
  have hgap : IsGap ['\t'] ".25E-1e+".toList := .blank (.inr (.inl rfl)) (.nil _)
  have hstart : StartsNumber ".25E-1e+".toList := .inr ⟨'2', _, rfl, rfl⟩
  obtain ⟨mantissa, exponent, rest, outcome, hmunch, -, -, hcall, -⟩ :=
    number_munched "é\t.25E-1e+"
      (show _ = ['é'] ++ (['\t'] ++ ".25E-1e+".toList) from rfl) hgap hstart
  exact ⟨hgap, hstart, mantissa, exponent, rest, outcome, hmunch, hcall⟩

end Straightline
