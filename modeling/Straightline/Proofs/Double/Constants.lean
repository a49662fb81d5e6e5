import Straightline.Proofs.Double.Rounding
import Straightline.Proofs.Ir.Words

/-!
# Constants keep every bit

A constant is written in one of two forms, and either can be read back.

* `Scientific` is a decimal with one digit before the point, six behind it and an exponent of two or
  three digits, and `Double.exists_scientific` says that the decimal form of a double always is one.
* `Scientific.RoundsTo` says which double is nearest to such a decimal, and
  `Scientific.roundsTo_iff` that reading finds it.
* `Double.constantText_lossless`: a constant is a decimal that is nearest to no other double, or the
  digits of the bits.
-/

namespace Straightline

/-! ### Decimals in scientific form -/

/-- A decimal with one digit before the point, six behind it, and a signed exponent of two or three
    digits. -/
structure Scientific where
  negative : Bool
  lead : Char
  fraction : List Char
  exponentNegative : Bool
  exponent : List Char
  lead_isDigit : lead.isDigit = true
  fraction_isDigit : ∀ c ∈ fraction, c.isDigit = true
  fraction_length : fraction.length = 6
  exponent_isDigit : ∀ c ∈ exponent, c.isDigit = true
  exponent_length : exponent.length = 2 ∨ exponent.length = 3

namespace Scientific

variable (s : Scientific)

/-- The decimal as it is written: `-d.ffffffe±xx`. -/
def text : List Char :=
  (if s.negative then ['-'] else []) ++ s.lead :: '.' :: s.fraction ++
    'e' :: (if s.exponentNegative then '-' else '+') :: s.exponent

/-- The whole number `dffffff` that the digits are without the point. -/
def coefficient : Nat := Decimal.ofDigits (s.lead :: s.fraction)

/-- The power of ten of the last digit: the exponent, less the six digits of the fraction. -/
def power : Int :=
  (if s.exponentNegative then -(Decimal.ofDigits s.exponent : Int)
    else Decimal.ofDigits s.exponent) - 6

/-- The number `coefficient * 10 ^ power` that the decimal stands for, without its sign. -/
def magnitude : ℚ := s.coefficient * 10 ^ s.power

/-- `s.RoundsTo d`: `d` has the sign of `s`, and its magnitude `IsNearest` to `s.magnitude`. -/
def RoundsTo (d : Double) : Prop :=
  d.negative = s.negative ∧ Double.IsNearest s.magnitude d.magnitude

end Scientific

/-- `readDigits?` reads digits as `Decimal.ofDigits` does. -/
theorem Numeral.readDigits?_eq {cs : List Char} (hne : cs ≠ []) (hcs : ∀ c ∈ cs, c.isDigit = true) :
    readDigits? cs = some (Decimal.ofDigits cs) := by
  unfold readDigits?
  rw [if_neg (by simpa using hne), if_pos (List.all_eq_true.mpr hcs)]

/-- `readExponent?` reads `e±xx` as the exponent `±xx`. -/
theorem Numeral.readExponent?_digits {cs : List Char} (hne : cs ≠ [])
    (hcs : ∀ c ∈ cs, c.isDigit = true) (negative : Bool) :
    readExponent? ('e' :: (if negative then '-' else '+') :: cs) =
      some (if negative then -(Decimal.ofDigits cs : Int) else Decimal.ofDigits cs) := by
  cases negative <;> simp [readExponent?, readInt?, readDigits?_eq hne hcs]

/-- `Numeral.read?` reads `s.text` as the sign, `s.coefficient` and `s.power`. -/
theorem Scientific.read?_text (s : Scientific) :
    Numeral.read? s.text = some ⟨s.negative, s.coefficient, s.power⟩ := by
  have hexponent : s.exponent ≠ [] := by
    intro h
    have := s.exponent_length
    simp [h] at this
  have hunsigned : Numeral.readUnsigned? s.negative (s.lead :: '.' :: s.fraction ++
      'e' :: (if s.exponentNegative then '-' else '+') :: s.exponent) =
        some ⟨s.negative, s.coefficient, s.power⟩ := by
    have hpoint : Char.isDigit '.' = false := rfl
    have hmark : Char.isDigit 'e' = false := rfl
    simp only [Numeral.readUnsigned?, List.cons_append, List.takeWhile_cons, List.dropWhile_cons,
      s.lead_isDigit, hpoint, if_true, Bool.false_eq_true, if_false,
      List.takeWhile_append_of_pos s.fraction_isDigit,
      List.dropWhile_append_of_pos s.fraction_isDigit, hmark, List.append_nil,
      Numeral.readExponent?_digits hexponent s.exponent_isDigit, s.fraction_length]
    rfl
  -- What is left is the sign. Without one, the first character is a digit, and `read?` finds no
  -- `-`.
  unfold text
  cases hnegative : s.negative with
  | true =>
    rw [hnegative] at hunsigned
    exact hunsigned
  | false =>
    rw [hnegative] at hunsigned
    have hlead : ∀ cs, s.lead :: '.' :: s.fraction ++
        'e' :: (if s.exponentNegative then '-' else '+') :: s.exponent ≠ '-' :: cs := by
      rintro cs h
      have hminus := s.lead_isDigit
      rw [(List.cons.inj h).1] at hminus
      cases hminus
    exact (Numeral.read?.eq_2 _ hlead).trans hunsigned

/-- `s` rounds to `d` iff `Double.read?` reads `s.text` as `d`. -/
theorem Scientific.roundsTo_iff (s : Scientific) (d : Double) :
    s.RoundsTo d ↔ Double.read? s.text = some d := by
  have hread : Double.read? s.text = some (.ofDecimal s.negative s.coefficient s.power) := by
    rw [Double.read?, s.read?_text]
    rfl
  rw [hread, Option.some.injEq]
  exact Double.isNearest_iff_ofDecimal_eq

/-! ### The decimal form of a double -/

namespace Decimal

/-- Every character of `digits n` is a digit. -/
theorem isDigit_of_mem_digits {n : Nat} {c : Char} (h : c ∈ digits n) : c.isDigit = true :=
  Nat.isDigit_of_mem_toDigits (by decide) (by decide) h

theorem digits_ne_nil (n : Nat) : digits n ≠ [] := Nat.toDigits_ne_nil

/-- `ofDigits` reads a number back from its digits. -/
theorem ofDigits_digits (n : Nat) : ofDigits (digits n) = n := by
  have hdigit : ∀ k < 10, (Nat.digitChar k).toNat - '0'.toNat = k := by decide
  -- By recursion as `Nat.toDigits` goes: the last digit is `n % 10`, those in front of it are of `n
  -- / 10`.
  induction n using Nat.strongRecOn with
  | ind n ih =>
    unfold digits at ih ⊢
    rw [Nat.toDigits_eq_if (by decide)]
    split
    · next hn =>
      show 10 * 0 + ((Nat.digitChar n).toNat - '0'.toNat) = n
      rw [hdigit n hn, Nat.mul_zero, Nat.zero_add]
    · next hn =>
      have hlast : n % 10 < 10 := Nat.mod_lt n (by decide)
      have hfront := ih (n / 10) (Nat.div_lt_self (by omega) (by decide))
      rw [ofDigits] at hfront
      rw [ofDigits, List.foldl_append, hfront, List.foldl_cons, List.foldl_nil, hdigit _ hlast]
      exact Nat.div_add_mod n 10

/-- Every character of `padded width n` is a digit. -/
theorem isDigit_of_mem_padded {width n : Nat} {c : Char} (h : c ∈ padded width n) :
    c.isDigit = true := by
  rcases List.mem_append.mp h with h | h
  · rw [List.eq_of_mem_replicate h]
    rfl
  · exact isDigit_of_mem_digits h

/-- `padded` makes a number longer up to `width`, and never shorter. -/
theorem length_padded (width n : Nat) : (padded width n).length = max width (Decimal.width n) := by
  rw [padded, List.length_append, List.length_replicate]
  show width - Decimal.width n + Decimal.width n = _
  omega

/-- A number has at most `k` digits iff it is less than `10 ^ k`. -/
theorem width_le_iff {n k : Nat} (hk : 0 < k) : width n ≤ k ↔ n < 10 ^ k :=
  Nat.length_toDigits_le_iff (by decide) hk

end Decimal

namespace Double

theorem binaryFraction_pos (m : Nat) (e : Int) : 0 < (binaryFraction m e).2 := by
  unfold binaryFraction
  split
  · exact Nat.pow_pos (by decide)
  · exact one_pos

/-- `binaryFraction m e` is `m * 2 ^ e` as a fraction. -/
theorem binaryFraction_cast (m : Nat) (e : Int) :
    ((binaryFraction m e).1 : ℚ) / (binaryFraction m e).2 = m * 2 ^ e := by
  unfold binaryFraction
  split
  · next he =>
    obtain ⟨n, rfl⟩ : ∃ n : Nat, e = -n := ⟨(-e).toNat, by omega⟩
    have hpow : ((Nat.pow 2 n : Nat) : ℚ) = 2 ^ n := Nat.cast_pow 2 n
    simp only [neg_neg, Int.toNat_natCast, hpow, zpow_neg, zpow_natCast, div_eq_mul_inv]
  · next he =>
    obtain ⟨n, rfl⟩ : ∃ n : Nat, e = n := ⟨e.toNat, by omega⟩
    have hpow : ((Nat.pow 2 n : Nat) : ℚ) = 2 ^ n := Nat.cast_pow 2 n
    simp only [Int.toNat_natCast, Nat.cast_mul, hpow, zpow_natCast, Nat.cast_one, div_one]

/-- The coefficient of `normalized places` has `places + 1` digits, also after rounding up. -/
theorem normalized_lt (places : Nat) {num den : Nat} (hnum : 0 < num) (hden : 0 < den) :
    (normalized places num den).1 < 10 ^ (places + 1) := by
  have hscale := Decimal.scale_cast num den (places - Decimal.log10 num den)
  have hhalf :=
    Decimal.abs_sub_roundHalfEven_le (Decimal.scale_pos hden num (places - Decimal.log10 num den))
    (Decimal.scale num den (places - Decimal.log10 num den)).1
  -- The decade leaves one digit before the point.
  have hlt : (num : ℚ) / den * 10 ^ (places - Decimal.log10 num den) < 10 ^ (places + 1) := by
    have hdecade : (num : ℚ) / den < 10 ^ (Int.log 10 ((num : ℚ) / den) + 1) :=
      Int.lt_zpow_succ_log_self (by decide) _
    rw [← Decimal.log10_eq hnum hden] at hdecade
    calc (num : ℚ) / den * 10 ^ (places - Decimal.log10 num den)
        < 10 ^ (Decimal.log10 num den + 1) * 10 ^ (places - Decimal.log10 num den) := by gcongr
      _ = 10 ^ (places + 1) := by
          rw [← zpow_add₀ (by norm_num), ← zpow_natCast]
          congr 1
          push_cast
          ring
  unfold normalized
  dsimp only
  generalize Decimal.scale num den (places - Decimal.log10 num den) = f at *
  have hround : (Decimal.roundHalfEven f.1 f.2 : ℚ) < 10 ^ (places + 1) + 1 := by
    rw [hscale] at hhalf
    linarith [(abs_le.mp hhalf).1]
  have hround : Decimal.roundHalfEven f.1 f.2 < 10 ^ (places + 1) + 1 := by exact_mod_cast hround
  split
  · exact Nat.pow_lt_pow_right (by decide) (Nat.lt_succ_self places)
  · next hne => exact lt_of_le_of_ne (Nat.lt_succ_iff.mp hround) hne

/-- The decade that `normalized` gives for a finite double has at most three digits. -/
theorem natAbs_normalized_lt {d : Double} {m : Nat} {e : Int} (h : d.view = .finite m e)
    (hnum : 0 < (binaryFraction m e).1) (places : Nat) :
    (normalized places (binaryFraction m e).1 (binaryFraction m e).2).2.natAbs < 1000 := by
  have hvalue := magnitudeValue_of_finite h
  rw [← binaryFraction_cast] at hvalue
  have hden := binaryFraction_pos m e
  have hpos : 0 < magnitudeValue d.magnitude := by
    rw [hvalue]
    positivity
  have hzero : d.magnitude ≠ 0 := by
    intro hzero
    rw [hzero, magnitudeValue_zero] at hpos
    exact lt_irrefl _ hpos
  -- `magnitudeValue` is at most `2 ^ 1024 ≤ 10 ^ 309` and at least `2 ^ -1074 > 10 ^ -325`.
  have hlow : Decimal.log10 (binaryFraction m e).1 (binaryFraction m e).2 ≤ 309 := by
    rw [Decimal.log10_eq hnum hden, ← hvalue]
    have hdecade : (10 : ℚ) ^ Int.log 10 (magnitudeValue d.magnitude) ≤ _ :=
      Int.zpow_log_le_self (by decide) hpos
    have hbound :=
      (hdecade.trans (magnitudeValue_le (magnitude_lt_of_finite h).le)).trans two_pow_1024_le
    exact (zpow_le_zpow_iff_right₀ (by norm_num)).mp hbound
  have hhigh : -325 < Decimal.log10 (binaryFraction m e).1 (binaryFraction m e).2 := by
    rw [Decimal.log10_eq hnum hden, ← hvalue]
    have hdecade : magnitudeValue d.magnitude <
        (10 : ℚ) ^ (Int.log 10 (magnitudeValue d.magnitude) + 1) :=
      Int.lt_zpow_succ_log_self (by decide) _
    have hleast : (2 : ℚ) ^ (-1075 : ℤ) ≤ 2 ^ (-1074 : ℤ) :=
      zpow_le_zpow_right₀ one_le_two (by norm_num)
    have hbound := ((ten_zpow_le.trans hleast).trans (le_magnitudeValue hzero)).trans_lt hdecade
    have := (zpow_lt_zpow_iff_right₀ (by norm_num)).mp hbound
    omega
  unfold normalized
  dsimp only
  split
  · dsimp only
    omega
  · dsimp only
    omega

/-- The sign, `withPoint 6 c` and `exponentText k` are a decimal in scientific form if `c` has at
    most seven digits and `k` at most three. -/
theorem exists_text_eq (d : Double) {c : Nat} (hc : c < 10 ^ 7) {k : Int} (hk : k.natAbs < 1000) :
    ∃ s : Scientific, d.signText ++ withPoint 6 c ++ exponentText k = s.text := by
  -- One digit in front of the point, six behind it, and at most three in the exponent.
  have hlead : Decimal.digits (c / Nat.pow 10 6) = [Nat.digitChar (c / Nat.pow 10 6)] :=
    Nat.toDigits_of_lt_base (Nat.div_lt_of_lt_mul hc)
  have hfraction : Decimal.width (c % Nat.pow 10 6) ≤ 6 :=
    (Decimal.width_le_iff (by decide)).mpr (Nat.mod_lt c (by decide))
  have hexponent : Decimal.width k.natAbs ≤ 3 := (Decimal.width_le_iff (by decide)).mpr hk
  refine ⟨{ negative := d.negative
            lead := Nat.digitChar (c / Nat.pow 10 6)
            fraction := Decimal.padded 6 (c % Nat.pow 10 6)
            exponentNegative := decide (k < 0)
            exponent := Decimal.padded 2 k.natAbs
            lead_isDigit := Decimal.isDigit_of_mem_digits (hlead ▸ List.mem_singleton_self _)
            fraction_isDigit := fun _ => Decimal.isDigit_of_mem_padded
            fraction_length := by rw [Decimal.length_padded]; omega
            exponent_isDigit := fun _ => Decimal.isDigit_of_mem_padded
            exponent_length := by rw [Decimal.length_padded]; omega }, ?_⟩
  simp [Scientific.text, withPoint, exponentText, signText, hlead]

/-- The decade of `rounded` has at most three digits for a finite double, also for zero. -/
theorem natAbs_rounded_lt {d : Double} {m : Nat} {e : Int} (h : d.view = .finite m e)
    (places : Nat) :
    (rounded places m e).2.natAbs < 1000 := by
  unfold rounded
  dsimp only
  split
  · decide
  · next hnum => exact natAbs_normalized_lt h (Nat.pos_of_ne_zero hnum) places

/-- The coefficient of `rounded places` has at most `places + 1` digits. -/
theorem rounded_lt (places m : Nat) (e : Int) : (rounded places m e).1 < 10 ^ (places + 1) := by
  unfold rounded
  dsimp only
  split
  · positivity
  · next hnum => exact normalized_lt places (Nat.pos_of_ne_zero hnum) (binaryFraction_pos m e)

/-- `readInt32?` reads a decade back from its text, as it is small. -/
theorem readInt32?_intText {k : Int} (hk : k.natAbs < 1000) :
    Numeral.readInt32? (Decimal.intText k).toList = some k := by
  have hdigits : Numeral.readDigits? (Decimal.digits k.natAbs) = some k.natAbs := by
    rw [Numeral.readDigits?_eq (Decimal.digits_ne_nil _) fun _ => Decimal.isDigit_of_mem_digits,
      Decimal.ofDigits_digits]
  have hread : Numeral.readInt? (Decimal.intText k).toList = some k := by
    rw [Decimal.intText, String.toList_append, toList_text]
    split
    · next hneg =>
      rw [show "-".toList = ['-'] from rfl, List.singleton_append]
      have hvalue : -(k.natAbs : Int) = k := by omega
      show (Numeral.readDigits? (Decimal.digits k.natAbs)).map (fun n : Nat => -(n : Int)) = _
      rw [hdigits, Option.map_some, hvalue]
    · next hpos =>
      -- Without a minus, the first character is a digit and no sign.
      have hsign : ∀ c ∈ ['+', '-'], ∀ cs, Decimal.digits k.natAbs ≠ c :: cs := by
        intro c hc cs heq
        have hdigit : c.isDigit = true :=
          Decimal.isDigit_of_mem_digits (n := k.natAbs) (heq ▸ by simp)
        fin_cases hc <;> cases hdigit
      have hvalue : (k.natAbs : Int) = k := by omega
      show Numeral.readInt? (Decimal.digits k.natAbs) = _
      rw [Numeral.readInt?.eq_3 _ (hsign '+' (by simp)) (hsign '-' (by simp)), hdigits,
        Option.map_some, hvalue]
  rw [Numeral.readInt32?, hread, Option.filter_some_pos]
  simp only [Bool.and_eq_true, decide_eq_true_eq]
  omega

/-- What `scientific? 6` gives is the text of a `Scientific`. -/
theorem exists_scientific {d : Double} {t : List Char} (h : d.scientific? 6 = some t) :
    ∃ s : Scientific, t = s.text := by
  obtain ⟨m, e, k, hview, hk, rfl⟩ := exists_of_scientific? h
  have hdecade := natAbs_rounded_lt hview 6
  rw [readInt32?_intText hdecade] at hk
  obtain rfl := Option.some.inj hk
  exact d.exists_text_eq (rounded_lt 6 m e) hdecade

/-! ### Bit patterns -/

/-- Whether a character is a digit of base sixteen, in upper case. -/
def isUpperHexDigit (c : Char) : Bool := ('0' ≤ c && c ≤ '9') || ('A' ≤ c && c ≤ 'F')

/-- `IsBitPattern bits ds`: `ds` are sixteen upper-case digits of base sixteen with the value
    `bits`. -/
structure IsBitPattern (bits : UInt64) (ds : List Char) : Prop where
  length_eq : ds.length = 16
  isUpperHexDigit : ∀ c ∈ ds, isUpperHexDigit c = true
  value : ofHexDigits ds = bits.toNat

/-- `Text.hexDigits 16` writes the bit pattern of `bits`. -/
theorem isBitPattern_hexDigits (bits : UInt64) :
    IsBitPattern bits (Text.hexDigits 16 bits.toNat) where
  length_eq := by
    have hbits : bits.toNat < 16 ^ 16 := bits.toNat_lt
    have hwidth : (Nat.toDigits 16 bits.toNat).length ≤ 16 :=
      (Nat.length_toDigits_le_iff (by decide) (by decide)).mpr hbits
    rw [Text.hexDigits, List.length_append, List.length_replicate, List.length_map]
    omega
  isUpperHexDigit := by
    intro c hc
    -- A zero of the padding, or a digit of the number.
    rcases List.mem_append.mp hc with hc | hc
    · rw [List.eq_of_mem_replicate hc]
      decide
    · obtain ⟨x, hx, rfl⟩ := List.mem_map.mp hc
      obtain ⟨k, hk, rfl⟩ := mem_toDigits (by decide) hx
      have hdigit : ∀ k < 16, Double.isUpperHexDigit (Nat.digitChar k).toUpper = true := by decide
      exact hdigit k hk
  value := ofHexDigits_hexDigits 16 bits.toNat

/-! ### Reading constants -/

/-- The double of a constant: the bits behind their mark, or what is nearest to the decimal. -/
def readConstant? : List Char → Option Double
  | '0' :: 'x' :: ds => some ⟨UInt64.ofNat (ofHexDigits ds)⟩
  | cs => read? cs

/-- `readConstant?` reads a double back from its bits. -/
theorem readConstant?_hexText (d : Double) : readConstant? d.hexText = some d := by
  show some (Double.mk (UInt64.ofNat (ofHexDigits (Text.hexDigits 16 d.bits.toNat)))) = some d
  rw [ofHexDigits_hexDigits, UInt64.ofNat_toNat]

/-- `readConstant?` takes no `s.text` for a bit pattern: an `x` never follows its first digit. -/
theorem readConstant?_text (s : Scientific) : readConstant? s.text = read? s.text := by
  refine readConstant?.eq_2 _ fun ds h => ?_
  cases hnegative : s.negative <;> simp [Scientific.text, hnegative] at h

/-- `d.constantText` is an `s.text` that reads as `d`, or `d.hexText`. -/
theorem constantText_cases (d : Double) :
    (∃ s : Scientific, d.constantText = s.text ∧ read? s.text = some d) ∨
    d.constantText = d.hexText := by
  unfold constantText
  split
  · next t ht =>
    obtain ⟨s, rfl⟩ := exists_scientific ht
    split
    · next hread => exact .inl ⟨s, rfl, hread⟩
    · exact .inr rfl
  · exact .inr rfl

/-- `d.constantText` is an `s.text` that `RoundsTo` `d` alone, or `0x` and the sixteen digits of
    `d.bits`. `readConstant?` gives `d` back, so no other double has this text. -/
theorem constantText_lossless (d : Double) :
    ((∃ s : Scientific, d.constantText = s.text ∧ ∀ d', s.RoundsTo d' ↔ d' = d) ∨
      ∃ ds, d.constantText = '0' :: 'x' :: ds ∧ IsBitPattern d.bits ds) ∧
    readConstant? d.constantText = some d ∧
    ∀ d' : Double, d'.constantText = d.constantText ↔ d' = d := by
  refine ⟨?_, ?_, fun _ => ⟨constantText_injective, congrArg constantText⟩⟩
  · rcases constantText_cases d with ⟨s, htext, hread⟩ | htext
    · refine .inl ⟨s, htext, fun d' => ?_⟩
      rw [s.roundsTo_iff, hread, Option.some.injEq]
      exact eq_comm
    · exact .inr ⟨_, htext, isBitPattern_hexDigits d.bits⟩
  · rcases constantText_cases d with ⟨s, htext, hread⟩ | htext
    · rw [htext, readConstant?_text s, hread]
    · rw [htext, readConstant?_hexText]

end Double

end Straightline
