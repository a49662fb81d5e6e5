import Mathlib
import Straightline.Double.Nearest

/-!
# Rounding to the nearest double

Reading a decimal works on fractions of natural numbers and on bit patterns. Here both are taken for
the numbers that they stand for.

* `Decimal.abs_sub_roundHalfEven_le` and `Decimal.even_of_abs_sub_roundHalfEven`: rounding a
  fraction goes to the nearest whole number, and to the even one if two are equally near.
* `Double.magnitudeValue` is the number that a magnitude stands for, and `Double.IsNearest` says
  that no other magnitude is nearer to some number.
* `Double.isNearest_nearestMagnitude` is the rounding of fractions, and `Double.isNearest_ofDecimal`
  that of decimals.
-/

namespace Straightline

/-! ### Fractions -/

namespace Decimal

theorem scale_pos {den : Nat} (hden : 0 < den) (num : Nat) (e : Int) : 0 < (scale num den e).2 := by
  unfold scale
  split
  · exact Nat.mul_pos hden (Nat.pow_pos (by decide))
  · exact hden

/-- `scale num den e` is the fraction `num / den * 10 ^ e`. -/
theorem scale_cast (num den : Nat) (e : Int) :
    ((scale num den e).1 : ℚ) / (scale num den e).2 = num / den * 10 ^ e := by
  have hpow : ∀ n : Nat, ((Nat.pow 10 n : Nat) : ℚ) = 10 ^ n := fun n => Nat.cast_pow 10 n
  unfold scale
  split
  · next he =>
    obtain ⟨n, rfl⟩ : ∃ n : Nat, e = -n := ⟨(-e).toNat, by omega⟩
    simp only [neg_neg, Int.toNat_natCast, Nat.cast_mul, hpow, zpow_neg, zpow_natCast]
    rw [div_mul_eq_div_div]
    rfl
  · next he =>
    obtain ⟨n, rfl⟩ : ∃ n : Nat, e = n := ⟨e.toNat, by omega⟩
    simp only [Int.toNat_natCast, Nat.cast_mul, hpow, zpow_natCast]
    ring

/-- `roundHalfEven` gives `num / den` or `num / den + 1`, whichever is at most half a unit away, and
    the even one of the two if both are. -/
theorem roundHalfEven_cases (num den : Nat) :
    (roundHalfEven num den = num / den ∧ 2 * (num % den) ≤ den ∧
      (2 * (num % den) = den → num / den % 2 = 0)) ∨
    (roundHalfEven num den = num / den + 1 ∧ den ≤ 2 * (num % den) ∧
      (2 * (num % den) = den → (num / den + 1) % 2 = 0)) := by
  unfold roundHalfEven
  dsimp only
  split
  · exact .inl ⟨rfl, by omega, by omega⟩
  · split
    · exact .inr ⟨rfl, by omega, by omega⟩
    · split
      · exact .inl ⟨rfl, by omega, fun _ => by omega⟩
      · exact .inr ⟨rfl, by omega, fun _ => by omega⟩

section

variable {den : Nat} (hden : 0 < den) (num : Nat)

include hden

/-- A fraction is its whole part and the rest over `den`. -/
theorem cast_div_eq : (num : ℚ) / den = (num / den : Nat) + (num % den : Nat) / den := by
  have hpos : (0 : ℚ) < den := Nat.cast_pos.mpr hden
  have hsplit : (num : ℚ) = den * (num / den : Nat) + (num % den : Nat) := by
    exact_mod_cast (Nat.div_add_mod num den).symm
  rw [eq_comm, eq_div_iff hpos.ne', add_mul, div_mul_cancel₀ _ hpos.ne']
  linarith

/-- `roundHalfEven num den` is at most half a unit away from `num / den`. -/
theorem abs_sub_roundHalfEven_le : |(num : ℚ) / den - roundHalfEven num den| ≤ 1 / 2 := by
  have hpos : (0 : ℚ) < den := Nat.cast_pos.mpr hden
  have hrest : (0 : ℚ) ≤ (num % den : Nat) / den := by positivity
  have hone : ((num % den : Nat) : ℚ) / den ≤ 1 := by
    rw [div_le_one hpos]
    exact_mod_cast (Nat.mod_lt num hden).le
  -- Between the quotient rounded down and the next number there is the remainder, over `den`.
  rw [cast_div_eq hden, abs_le]
  rcases roundHalfEven_cases num den with ⟨hround, hhalf, -⟩ | ⟨hround, hhalf, -⟩
  · have hle : ((num % den : Nat) : ℚ) / den ≤ 1 / 2 := by
      rw [div_le_div_iff₀ hpos two_pos, one_mul, mul_comm]
      exact_mod_cast hhalf
    rw [hround]
    constructor <;> linarith
  · have hle : (1 : ℚ) / 2 ≤ (num % den : Nat) / den := by
      rw [div_le_div_iff₀ two_pos hpos, one_mul, mul_comm]
      exact_mod_cast hhalf
    rw [hround]
    push_cast
    constructor <;> linarith

/-- If `roundHalfEven num den` is half a unit away, it is even. -/
theorem even_of_abs_sub_roundHalfEven (h : |(num : ℚ) / den - roundHalfEven num den| = 1 / 2) :
    roundHalfEven num den % 2 = 0 := by
  have hpos : (0 : ℚ) < den := Nat.cast_pos.mpr hden
  have hrest : (0 : ℚ) ≤ (num % den : Nat) / den := by positivity
  have hone : ((num % den : Nat) : ℚ) / den ≤ 1 := by
    rw [div_le_one hpos]
    exact_mod_cast (Nat.mod_lt num hden).le
  -- Either way, the rest of the division is just in the middle.
  have htie : ((num % den : Nat) : ℚ) / den = 1 / 2 → 2 * (num % den) = den := by
    intro hmid
    rw [div_eq_div_iff hpos.ne' two_ne_zero, one_mul, mul_comm] at hmid
    exact_mod_cast hmid
  rw [cast_div_eq hden] at h
  rcases roundHalfEven_cases num den with ⟨hround, -, heven⟩ | ⟨hround, -, heven⟩ <;>
    rw [hround] at h ⊢
  · rw [add_sub_cancel_left, abs_of_nonneg hrest] at h
    exact heven (htie h)
  · push_cast at h
    rw [add_sub_add_left_eq_sub, abs_of_nonpos (by linarith)] at h
    exact heven (htie (by linarith))

end

end Decimal

/-! ### Logarithms of fractions -/

/-- If `num` has the order `i` and `den` the order `j` to the base `b`, then `num / den` has the
    order `i - j` or `i - j - 1`, and a comparison with `b ^ (i - j)` tells which. -/
theorem log_div_eq {b : Nat} (hb : 1 < b) {num den i j : Nat} (hnum : b ^ i ≤ num)
    (hnum' : num < b ^ (i + 1)) (hden : b ^ j ≤ den) (hden' : den < b ^ (j + 1)) :
    Int.log b ((num : ℚ) / den) = if (b : ℚ) ^ ((i : ℤ) - j) ≤ num / den then (i : ℤ) - j
    else i - j - 1 := by
  have hbase : (0 : ℚ) < b := by exact_mod_cast Nat.zero_lt_of_lt hb
  have hpos : (0 : ℚ) < den := by exact_mod_cast (Nat.pow_pos (by omega)).trans_le hden
  have hnum₀ : (0 : ℚ) < num := by exact_mod_cast (Nat.pow_pos (by omega)).trans_le hnum
  have hfraction : (0 : ℚ) < num / den := div_pos hnum₀ hpos
  have hlow : (b : ℚ) ^ ((i : ℤ) - j - 1) ≤ num / den := by
    have hsplit : ((i : ℤ) - j - 1) = (i : ℤ) - ((j + 1 : Nat) : ℤ) := by push_cast; ring
    have hparts : (b : ℚ) ^ i ≤ num ∧ (den : ℚ) ≤ b ^ (j + 1) :=
      ⟨by exact_mod_cast hnum, by exact_mod_cast hden'.le⟩
    rw [hsplit, zpow_sub₀ hbase.ne', zpow_natCast, zpow_natCast]
    exact div_le_div₀ hnum₀.le hparts.1 hpos hparts.2
  have hhigh : (num : ℚ) / den < b ^ ((i : ℤ) - j + 1) := by
    have hsplit : ((i : ℤ) - j + 1) = ((i + 1 : Nat) : ℤ) - j := by push_cast; ring
    have hparts : (num : ℚ) < b ^ (i + 1) ∧ (b : ℚ) ^ j ≤ den :=
      ⟨by exact_mod_cast hnum', by exact_mod_cast hden⟩
    rw [hsplit, zpow_sub₀ hbase.ne', zpow_natCast, zpow_natCast]
    exact div_lt_div₀ hparts.1 hparts.2 (by positivity) (by positivity)
  -- One of the two powers of the base is the greatest that is not above the fraction.
  split
  · next h =>
    have := (Int.zpow_le_iff_le_log hb hfraction).mp h
    have := (Int.lt_zpow_iff_log_lt hb hfraction).mp hhigh
    omega
  · next h =>
    have := (Int.zpow_le_iff_le_log hb hfraction).mp hlow
    have := (Int.lt_zpow_iff_log_lt hb hfraction).mp (not_le.mp h)
    omega

namespace Decimal

theorem lt_pow_width (n : Nat) : n < 10 ^ width n :=
  (Nat.length_toDigits_le_iff (by decide) Nat.length_toDigits_pos).mp le_rfl

theorem pow_width_le {n : Nat} (hn : 0 < n) : 10 ^ (width n - 1) ≤ n := by
  by_contra h
  rcases Nat.eq_zero_or_pos (width n - 1) with hone | hmore
  · rw [hone] at h
    omega
  · have hle : width n ≤ width n - 1 :=
      (Nat.length_toDigits_le_iff (by decide) hmore).mpr (not_le.mp h)
    omega

/-- `log10` is the decimal logarithm of a fraction, rounded down. -/
theorem log10_eq {num den : Nat} (hnum : 0 < num) (hden : 0 < den) :
    log10 num den = Int.log 10 ((num : ℚ) / den) := by
  have hwidth : ∀ n, 0 < width n := fun n => Nat.length_toDigits_pos
  have hlt : ∀ n, n < 10 ^ (width n - 1 + 1) := by
    intro n
    rw [Nat.sub_add_cancel (hwidth n)]
    exact lt_pow_width n
  have hdiff : ((width num - 1 : Nat) : ℤ) - (width den - 1 : Nat) =
      (width num : ℤ) - width den := by
    have := hwidth num
    have := hwidth den
    omega
  have hlog := log_div_eq (by decide) (pow_width_le hnum) (hlt num) (pow_width_le hden) (hlt den)
  rw [hdiff, Nat.cast_ofNat] at hlog
  rw [hlog]
  unfold log10
  generalize (width num : ℤ) - width den = k
  -- `log10` compares whole numbers where `log_div_eq` compares the fraction with a power.
  have htest : (scale num den (-k)).2 ≤ (scale num den (-k)).1 ↔ (10 : ℚ) ^ k ≤ num / den := by
    have hpos : (0 : ℚ) < (scale num den (-k)).2 := by exact_mod_cast scale_pos hden num (-k)
    rw [← Nat.cast_le (α := ℚ), ← one_le_div hpos, scale_cast, zpow_neg, ← div_eq_mul_inv,
      one_le_div (by positivity)]
  simp only [htest]

end Decimal

namespace Double

section

variable (num den : Nat) {k : Int}

/-- Dividing by a power of two below 1 multiplies the numerator. -/
theorem div_zpow_of_neg (hk : k < 0) :
    ((num * Nat.pow 2 (-k).toNat : Nat) : ℚ) / den = num / den / 2 ^ k := by
  obtain ⟨n, rfl⟩ : ∃ n : Nat, k = -n := ⟨(-k).toNat, by omega⟩
  have hpow : ((Nat.pow 2 n : Nat) : ℚ) = 2 ^ n := Nat.cast_pow 2 n
  simp only [neg_neg, Int.toNat_natCast, Nat.cast_mul, hpow, zpow_neg, zpow_natCast, div_inv_eq_mul]
  ring

/-- Dividing by any other power of two multiplies the denominator. -/
theorem div_zpow_of_nonneg (hk : 0 ≤ k) :
    (num : ℚ) / (den * Nat.pow 2 k.toNat : Nat) = num / den / 2 ^ k := by
  obtain ⟨n, rfl⟩ : ∃ n : Nat, k = n := ⟨k.toNat, by omega⟩
  have hpow : ((Nat.pow 2 n : Nat) : ℚ) = 2 ^ n := Nat.cast_pow 2 n
  simp only [Int.toNat_natCast, Nat.cast_mul, hpow, zpow_natCast]
  rw [div_mul_eq_div_div]

end

/-- `log2` is the binary logarithm of a fraction, rounded down. -/
theorem log2_eq {num den : Nat} (hnum : 0 < num) (hden : 0 < den) :
    log2 num den = Int.log 2 ((num : ℚ) / den) := by
  have hpos : (0 : ℚ) < den := Nat.cast_pos.mpr hden
  have hlog := log_div_eq (by decide) (Nat.log2_self_le hnum.ne') Nat.lt_log2_self
    (Nat.log2_self_le hden.ne') Nat.lt_log2_self
  rw [Nat.cast_ofNat] at hlog
  rw [hlog]
  unfold log2
  -- The quotient is `2 ^ k` or more, or less than that: the test does without fractions, so that it
  -- multiplies by a power on the one side or on the other.
  generalize (num.log2 : ℤ) - den.log2 = k
  dsimp only
  split
  · next hk =>
    have htest : den ≤ num * Nat.pow 2 (-k).toNat ↔ (2 : ℚ) ^ k ≤ num / den := by
      rw [← Nat.cast_le (α := ℚ), ← one_le_div hpos, div_zpow_of_neg num den hk,
        one_le_div (by positivity)]
    simp only [htest]
  · next hk =>
    have hscaled : (0 : ℚ) < (den * Nat.pow 2 k.toNat : Nat) :=
      Nat.cast_pos.mpr (Nat.mul_pos hden (Nat.pow_pos (by decide)))
    have htest : den * Nat.pow 2 k.toNat ≤ num ↔ (2 : ℚ) ^ k ≤ num / den := by
      rw [← Nat.cast_le (α := ℚ), ← one_le_div hscaled, div_zpow_of_nonneg num den (not_lt.mp hk),
        one_le_div (by positivity)]
    simp only [htest]

/-! ### Magnitudes -/

/-- The number that a magnitude stands for. That of the infinities stands for the power of two
    behind the greatest finite double. -/
def magnitudeValue (m : Nat) : ℚ :=
  if m < 2 ^ 52 then m * 2 ^ (-1074 : ℤ)
    else (2 ^ 52 + m % 2 ^ 52 : Nat) * 2 ^ ((m / 2 ^ 52 : Nat) - 1075 : ℤ)

/-- `magnitudeValue` is `m * 2 ^ e` for a double that `view` takes apart into `m` and `e`. -/
theorem magnitudeValue_of_finite {d : Double} {m : Nat} {e : Int} (h : d.view = .finite m e) :
    magnitudeValue d.magnitude = m * 2 ^ e := by
  unfold view at h
  unfold magnitudeValue
  dsimp only at h
  split at h
  · cases h
  · split at h
    · cases h
    · split at h
      · next hsmall =>
        obtain ⟨rfl, rfl⟩ := View.finite.inj h
        exact if_pos hsmall
      · next hlarge =>
        obtain ⟨rfl, rfl⟩ := View.finite.inj h
        exact if_neg hlarge

/-- The magnitude of a finite double is below `infinityMagnitude`. -/
theorem magnitude_lt_of_finite {d : Double} {m : Nat} {e : Int} (h : d.view = .finite m e) :
    d.magnitude < infinityMagnitude := by
  unfold view at h
  dsimp only at h
  split at h
  · cases h
  · split at h
    · cases h
    · omega

/-- `e * 2 ^ 52 + mantissa` stands for `mantissa * 2 ^ (e - 1074)` if the mantissa has 53 bits, or
    fewer and `e = 0`. The mantissa `2 ^ 53`, which rounding up can lead to, is allowed. -/
theorem magnitudeValue_add {e mantissa : Nat} (hlow : e = 0 ∨ 2 ^ 52 ≤ mantissa)
    (hhigh : mantissa ≤ 2 ^ 53) :
    magnitudeValue (e * 2 ^ 52 + mantissa) = mantissa * 2 ^ (e - 1074 : ℤ) := by
  unfold magnitudeValue
  rcases lt_or_ge mantissa (2 ^ 52) with hsmall | hlarge
  · -- A subnormal number has the least exponent.
    obtain rfl : e = 0 := hlow.resolve_right (by omega)
    rw [if_pos (by omega)]
    simp
  · rw [if_neg (by omega)]
    rcases lt_or_eq_of_le hhigh with hlt | rfl
    · obtain ⟨f, rfl⟩ : ∃ f, mantissa = 2 ^ 52 + f := ⟨mantissa - 2 ^ 52, by omega⟩
      have hdiv : (e * 2 ^ 52 + (2 ^ 52 + f)) / 2 ^ 52 = e + 1 := by omega
      have hmod : (e * 2 ^ 52 + (2 ^ 52 + f)) % 2 ^ 52 = f := by omega
      rw [hdiv, hmod]
      push_cast
      congr 2
      ring
    · -- The mantissa carries over into the exponent.
      have hdiv : (e * 2 ^ 52 + 2 ^ 53) / 2 ^ 52 = e + 2 := by omega
      have hmod : (e * 2 ^ 52 + 2 ^ 53) % 2 ^ 52 = 0 := by omega
      have hexp : ((e + 2 : Nat) : ℤ) - 1075 = (e - 1074 : ℤ) + 1 := by push_cast; ring
      rw [hdiv, hmod, hexp, zpow_add_one₀ two_ne_zero]
      push_cast
      ring

/-- Every magnitude is `e * 2 ^ 52 + mantissa` with such a mantissa. -/
theorem exists_mantissa (m : Nat) :
    ∃ e mantissa, m = e * 2 ^ 52 + mantissa ∧ (e = 0 ∨ 2 ^ 52 ≤ mantissa) ∧ mantissa < 2 ^ 53 := by
  by_cases hm : m < 2 ^ 53
  · exact ⟨0, m, by omega, .inl rfl, hm⟩
  · exact ⟨m / 2 ^ 52 - 1, 2 ^ 52 + m % 2 ^ 52, by omega, .inr (by omega), by omega⟩

/-- `magnitudeValue m` is a multiple of the unit `2 ^ (e - 1074)`, or at most `2 ^ 52` units. -/
theorem magnitudeValue_multiple_or_le (m e : Nat) :
    (∃ j : Nat, magnitudeValue m = j * 2 ^ (e - 1074 : ℤ)) ∨
      e ≠ 0 ∧ magnitudeValue m ≤ 2 ^ 52 * 2 ^ (e - 1074 : ℤ) := by
  obtain ⟨f, mantissa, rfl, hlow, hhigh⟩ := exists_mantissa m
  rw [magnitudeValue_add hlow hhigh.le]
  -- A magnitude with a larger exponent `f` is a multiple, and one with a smaller exponent is small.
  rcases le_or_gt e f with hle | hlt
  · refine .inl ⟨mantissa * 2 ^ (f - e), ?_⟩
    have hexp : (f - 1074 : ℤ) = ((f - e : Nat) : ℤ) + (e - 1074 : ℤ) := by omega
    rw [hexp, zpow_add₀ two_ne_zero, zpow_natCast]
    push_cast
    ring
  · refine .inr ⟨by omega, ?_⟩
    calc (mantissa : ℚ) * 2 ^ (f - 1074 : ℤ)
        ≤ 2 ^ 53 * 2 ^ (f - 1074 : ℤ) := by
          gcongr
          exact_mod_cast hhigh.le
      _ = 2 ^ 52 * 2 ^ (f - 1074 + 1 : ℤ) := by
          rw [zpow_add_one₀ two_ne_zero]
          ring
      _ ≤ 2 ^ 52 * 2 ^ (e - 1074 : ℤ) := by
          gcongr
          · norm_num
          · omega

/-- `magnitudeValue` is strictly monotone. -/
theorem strictMono_magnitudeValue : StrictMono magnitudeValue := by
  refine strictMono_nat_of_lt_succ fun m => ?_
  obtain ⟨e, mantissa, rfl, hlow, hhigh⟩ := exists_mantissa m
  rw [add_assoc, magnitudeValue_add hlow hhigh.le, magnitudeValue_add (by omega) hhigh]
  gcongr
  exact Nat.lt_succ_self mantissa

@[simp] theorem magnitudeValue_zero : magnitudeValue 0 = 0 := by
  simp [magnitudeValue]

theorem two_pow_mul_zpow (n : Nat) (e : ℤ) : (2 : ℚ) ^ n * 2 ^ e = 2 ^ (n + e) := by
  rw [zpow_add₀ two_ne_zero, zpow_natCast]

/-- `infinityMagnitude` stands for `2 ^ 1024`. -/
theorem magnitudeValue_infinity : magnitudeValue infinityMagnitude = 2 ^ (1024 : ℤ) := by
  have h := magnitudeValue_add (e := 2046) (.inr le_rfl)
    (Nat.pow_le_pow_right two_pos (by decide : 52 ≤ 53))
  rw [show 2046 * 2 ^ 52 + 2 ^ 52 = infinityMagnitude from rfl, Nat.cast_pow, Nat.cast_ofNat,
    two_pow_mul_zpow] at h
  exact h

/-- No magnitude stands for more than `2 ^ 1024`. -/
theorem magnitudeValue_le {m : Nat} (hm : m ≤ infinityMagnitude) :
    magnitudeValue m ≤ 2 ^ (1024 : ℤ) := by
  rcases Nat.lt_or_ge m infinityMagnitude with hlt | hge
  · -- Below infinity the exponent is at most 971 and the mantissa has 53 bits.
    have hbound : m < 2047 * 2 ^ 52 := hlt
    obtain ⟨e, mantissa, rfl, hlow, hhigh⟩ := exists_mantissa m
    rw [magnitudeValue_add hlow hhigh.le]
    calc (mantissa : ℚ) * 2 ^ (e - 1074 : ℤ)
        ≤ 2 ^ 53 * 2 ^ (971 : ℤ) := by
          gcongr
          · exact_mod_cast hhigh.le
          · norm_num
          · omega
      _ = 2 ^ (1024 : ℤ) := two_pow_mul_zpow 53 971
  · rw [le_antisymm hm hge, magnitudeValue_infinity]

/-! ### Nearest magnitudes -/

/-- `IsNearest x m`: no other magnitude is nearer to `x` than `m`, and if another one is as near,
    then `m` is even. -/
structure IsNearest (x : ℚ) (m : Nat) : Prop where
  le_infinity : m ≤ infinityMagnitude
  nearest : ∀ k ≤ infinityMagnitude, |x - magnitudeValue m| ≤ |x - magnitudeValue k|
  even : ∀ k ≤ infinityMagnitude, k ≠ m →
    |x - magnitudeValue m| = |x - magnitudeValue k| → m % 2 = 0

/-- At most one magnitude `IsNearest` to `x`. -/
theorem IsNearest.unique {x : ℚ} {m m' : Nat} (h : IsNearest x m) (h' : IsNearest x m') :
    m = m' := by
  wlog hle : m ≤ m' generalizing m m'
  · exact (this h' h (by omega)).symm
  by_contra hne
  have htie := le_antisymm (h.nearest m' h'.le_infinity) (h'.nearest m h.le_infinity)
  have heven := h.even m' h'.le_infinity (Ne.symm hne) htie
  have heven' := h'.even m h.le_infinity hne htie.symm
  -- Between two even magnitudes there is an odd one, and that is nearer.
  have hlow := strictMono_magnitudeValue (Nat.lt_succ_self m)
  have hhigh : magnitudeValue (m + 1) < magnitudeValue m' := strictMono_magnitudeValue (by omega)
  have hbetween := h.nearest (m + 1) (by have := h'.le_infinity; omega)
  rcases abs_eq_abs.mp htie with heq | heq
  · linarith
  · have hx : |x - magnitudeValue m| = x - magnitudeValue m := abs_of_nonneg (by linarith)
    have hnearer : |x - magnitudeValue (m + 1)| < x - magnitudeValue m :=
      abs_lt.mpr ⟨by linarith, by linarith⟩
    linarith

/-- A whole number `r` at most half a unit away from `y` is nearest to `y`, and no other one is as
    near unless `r` is half a unit away. -/
theorem nearest_of_half {y : ℚ} {r : Nat} (hhalf : |y - r| ≤ 1 / 2)
    (heven : |y - r| = 1 / 2 → r % 2 = 0) (k : Nat) :
    |y - r| ≤ |y - k| ∧ (k ≠ r → |y - r| = |y - k| → r % 2 = 0) := by
  by_cases hk : k = r
  · subst hk
    exact ⟨le_rfl, fun h => absurd rfl h⟩
  · -- Another whole number is one away from `r`, so at least a half away from `y`.
    have hone : (1 : ℚ) ≤ |(k : ℚ) - r| := by
      have : (1 : ℤ) ≤ |(k : ℤ) - r| := Int.one_le_abs (by omega)
      exact_mod_cast this
    have htriangle : |(k : ℚ) - r| ≤ |y - k| + |y - r| := by
      have := abs_sub_le (k : ℚ) y r
      rwa [abs_sub_comm (k : ℚ) y] at this
    refine ⟨by linarith, fun _ htie => heven ?_⟩
    linarith

section

variable {x : ℚ} {e mantissa : Nat}
  (hlow : e = 0 ∨ 2 ^ 52 * 2 ^ (e - 1074 : ℤ) ≤ x) (hhigh : x < 2 ^ 53 * 2 ^ (e - 1074 : ℤ))
  (hhalf : |x / 2 ^ (e - 1074 : ℤ) - mantissa| ≤ 1 / 2)

include hhalf

/-- A mantissa that `x` is rounded to is at most `2 ^ 53` if `x` is less than `2 ^ 53` units. -/
theorem mantissa_le (hhigh : x < 2 ^ 53 * 2 ^ (e - 1074 : ℤ)) : mantissa ≤ 2 ^ 53 := by
  have hy : x / 2 ^ (e - 1074 : ℤ) < 2 ^ 53 := (div_lt_iff₀ (by positivity)).mpr hhigh
  have hlt : (mantissa : ℚ) < 2 ^ 53 + 1 := by
    have := (abs_le.mp hhalf).1
    linarith
  have : mantissa < 2 ^ 53 + 1 := by exact_mod_cast hlt
  omega

/-- It is at least `2 ^ 52` if `x` is at least `2 ^ 52` units. -/
theorem le_mantissa (hlow : 2 ^ 52 * 2 ^ (e - 1074 : ℤ) ≤ x) : 2 ^ 52 ≤ mantissa := by
  have hy : (2 : ℚ) ^ 52 ≤ x / 2 ^ (e - 1074 : ℤ) := (le_div_iff₀ (by positivity)).mpr hlow
  have hlt : (2 : ℚ) ^ 52 < mantissa + 1 := by
    have := (abs_le.mp hhalf).2
    linarith
  have : 2 ^ 52 < mantissa + 1 := by exact_mod_cast hlt
  omega

include hlow hhigh

/-- If `mantissa` is `x` in units of `2 ^ (e - 1074)`, rounded to the nearest, and to even in the
    middle, then `e * 2 ^ 52 + mantissa` is nearest to `x`, and even in the middle. -/
theorem nearest_of_mantissa (heven : |x / 2 ^ (e - 1074 : ℤ) - mantissa| = 1 / 2 → mantissa % 2 = 0)
    (k : Nat) :
    |x - magnitudeValue (e * 2 ^ 52 + mantissa)| ≤ |x - magnitudeValue k| ∧
      (k ≠ e * 2 ^ 52 + mantissa →
        |x - magnitudeValue (e * 2 ^ 52 + mantissa)| = |x - magnitudeValue k| →
          (e * 2 ^ 52 + mantissa) % 2 = 0) := by
  have hmantissa : e = 0 ∨ 2 ^ 52 ≤ mantissa := hlow.imp_right (le_mantissa hhalf)
  have hvalue := magnitudeValue_add hmantissa (mantissa_le hhalf hhigh)
  rw [hvalue]
  generalize hu : (2 : ℚ) ^ (e - 1074 : ℤ) = u at *
  have hpos : 0 < u := hu ▸ by positivity
  -- Everything is measured in units.
  obtain ⟨y, rfl⟩ : ∃ y, x = y * u := ⟨x / u, (div_mul_cancel₀ x hpos.ne').symm⟩
  rw [mul_div_cancel_right₀ _ hpos.ne'] at hhalf heven
  have hunits : ∀ z : ℚ, |y * u - z * u| = |y - z| * u := fun z => by
    rw [← sub_mul, abs_mul, abs_of_pos hpos]
  have hparity : mantissa % 2 = 0 → (e * 2 ^ 52 + mantissa) % 2 = 0 := fun h => by omega
  rcases magnitudeValue_multiple_or_le k e with ⟨j, hj⟩ | ⟨he, hle⟩
  · obtain ⟨hnear, htie⟩ := nearest_of_half hhalf heven j
    rw [hj, hu, hunits, hunits]
    refine ⟨by gcongr, fun hne heq => hparity (htie ?_ (mul_right_cancel₀ hpos.ne' heq))⟩
    rintro rfl
    exact hne (strictMono_magnitudeValue.injective (hj.trans (hu ▸ hvalue.symm)))
  · -- Below the exponent, nothing is nearer than its least mantissa.
    rw [hu] at hle
    have hy : (2 : ℚ) ^ 52 ≤ y := le_of_mul_le_mul_right (hlow.resolve_left he) hpos
    have hcast : ((2 ^ 52 : Nat) : ℚ) = 2 ^ 52 := Nat.cast_pow 2 52
    obtain ⟨hnear, htie⟩ := nearest_of_half hhalf heven (2 ^ 52)
    rw [hcast] at hnear htie
    have hbelow : |y - 2 ^ 52| * u ≤ |y * u - magnitudeValue k| := by
      rw [abs_of_nonneg (by linarith), abs_of_nonneg (by nlinarith)]
      linarith
    have hscaled : |y - mantissa| * u ≤ |y - 2 ^ 52| * u := by gcongr
    rw [hunits]
    refine ⟨hscaled.trans hbelow, fun _ heq => hparity ?_⟩
    by_cases hleast : 2 ^ 52 = mantissa
    · omega
    · exact htie hleast (le_antisymm hnear (le_of_mul_le_mul_right (heq ▸ hbelow) hpos))

end

/-- Every magnitude but 0 stands for at least `2 ^ -1074`. -/
theorem le_magnitudeValue {m : Nat} (hm : m ≠ 0) : 2 ^ (-1074 : ℤ) ≤ magnitudeValue m := by
  have hone : magnitudeValue 1 = 2 ^ (-1074 : ℤ) := by simp [magnitudeValue]
  rw [← hone]
  exact strictMono_magnitudeValue.monotone (Nat.one_le_iff_ne_zero.mpr hm)

/-- `infinityMagnitude` is nearest to every number from `2 ^ 1024` on. -/
theorem isNearest_infinity {x : ℚ} (hx : 2 ^ (1024 : ℤ) ≤ x) : IsNearest x infinityMagnitude where
  le_infinity := le_rfl
  nearest k hk := by
    have hle := magnitudeValue_le hk
    rw [magnitudeValue_infinity, abs_of_nonneg (by linarith), abs_of_nonneg (by linarith)]
    linarith
  even _ _ _ _ := by decide

/-- The magnitude 0 is nearest to every number up to `2 ^ -1075`. -/
theorem isNearest_zero {x : ℚ} (hx : 0 ≤ x) (hsmall : x ≤ 2 ^ (-1075 : ℤ)) : IsNearest x 0 where
  le_infinity := Nat.zero_le _
  nearest k _ := by
    rw [magnitudeValue_zero, sub_zero, abs_of_nonneg hx]
    by_cases hk : k = 0
    · rw [hk, magnitudeValue_zero, sub_zero]
      exact le_abs_self x
    · -- Any other number is at least `2 ^ (-1074)`, and `x` is at most half of it.
      have hhalf : (2 : ℚ) ^ (-1074 : ℤ) = 2 * 2 ^ (-1075 : ℤ) := by
        rw [← zpow_one_add₀ two_ne_zero]
        norm_num
      have hleast := le_magnitudeValue hk
      rw [hhalf] at hleast
      rw [abs_sub_comm, abs_of_nonneg (by linarith)]
      linarith
  even _ _ _ _ := rfl

/-- `r` is a fraction in units of `2 ^ q`, rounded to the nearest, and to even in the middle. -/
theorem roundHalfEven_units (num : Nat) {den : Nat} (hden : 0 < den) (q : Int) {r : Nat}
    (hr : (if q < 0 then Decimal.roundHalfEven (num * Nat.pow 2 (-q).toNat) den
      else Decimal.roundHalfEven num (den * Nat.pow 2 q.toNat)) = r) :
    |(num : ℚ) / den / 2 ^ q - r| ≤ 1 / 2 ∧
        (|(num : ℚ) / den / 2 ^ q - r| = 1 / 2 → r % 2 = 0) := by
  subst hr
  split
  · next hq =>
    rw [← div_zpow_of_neg num den hq]
    exact ⟨Decimal.abs_sub_roundHalfEven_le hden _, Decimal.even_of_abs_sub_roundHalfEven hden _⟩
  · next hq =>
    have hscaled : 0 < den * Nat.pow 2 q.toNat := Nat.mul_pos hden (Nat.pow_pos (by decide))
    rw [← div_zpow_of_nonneg num den (not_lt.mp hq)]
    exact ⟨Decimal.abs_sub_roundHalfEven_le hscaled _,
      Decimal.even_of_abs_sub_roundHalfEven hscaled _⟩

/-- `nearestMagnitude num den` is nearest to `num / den`. -/
theorem isNearest_nearestMagnitude (num : Nat) {den : Nat} (hden : 0 < den) :
    IsNearest ((num : ℚ) / den) (nearestMagnitude num den) := by
  unfold nearestMagnitude
  split
  · next hzero =>
    subst hzero
    exact isNearest_zero (by simp) (by simp)
  · next hnum =>
    have hfraction : (0 : ℚ) < num / den := by
      have : 0 < num := by omega
      positivity
    dsimp only
    generalize hq : max (log2 num den - 52) (-1074) = q
    generalize hmantissa : (if q < 0 then _ else _ : Nat) = mantissa
    obtain ⟨hhalf, heven⟩ := roundHalfEven_units num hden q hmantissa
    rw [log2_eq (by omega) hden] at hq
    clear hmantissa
    generalize (num : ℚ) / den = x at *
    obtain ⟨e, rfl⟩ : ∃ e : Nat, q = e - 1074 := ⟨(q + 1074).toNat, by omega⟩
    -- The exponent leaves 53 bits, unless it is the least one.
    have hlow : e = 0 ∨ 2 ^ 52 * 2 ^ (e - 1074 : ℤ) ≤ x := by
      rcases Nat.eq_zero_or_pos e with he | he
      · exact .inl he
      · refine .inr ?_
        rw [two_pow_mul_zpow]
        refine le_trans ?_ (Int.zpow_log_le_self one_lt_two hfraction)
        exact zpow_le_zpow_right₀ one_le_two (by push_cast; omega)
    have hhigh : x < 2 ^ 53 * 2 ^ (e - 1074 : ℤ) := by
      rw [two_pow_mul_zpow]
      refine (Int.lt_zpow_succ_log_self one_lt_two x).trans_le ?_
      exact zpow_le_zpow_right₀ one_le_two (by push_cast; omega)
    have hnearest := nearest_of_mantissa hlow hhigh hhalf heven
    have hmagnitude : (e - 1074 + 1074 : ℤ).toNat * Nat.pow 2 52 + mantissa =
        e * 2 ^ 52 + mantissa := by
      rw [sub_add_cancel, Int.toNat_natCast]
      rfl
    rw [hmagnitude]
    rcases le_or_gt (e * 2 ^ 52 + mantissa) infinityMagnitude with hle | hgt
    · rw [min_eq_left hle]
      exact ⟨hle, fun k _ => (hnearest k).1, fun k _ => (hnearest k).2⟩
    · rw [min_eq_right hgt.le]
      refine isNearest_infinity (not_lt.mp fun hx => ?_)
      -- A number that is not behind all finite doubles has an exponent that leaves room for a
      -- mantissa.
      have he : e ≤ 2045 := by
        rcases hlow with rfl | hlow
        · decide
        · rw [two_pow_mul_zpow] at hlow
          have := (zpow_lt_zpow_iff_right₀ one_lt_two).mp (hlow.trans_lt hx)
          push_cast at this
          omega
      have hmantissa := mantissa_le hhalf hhigh
      have hinfinity : 2047 * 2 ^ 52 < e * 2 ^ 52 + mantissa := hgt
      omega

/-! ### Decimals -/

/-- `ofMagnitude` has the sign and the magnitude that it is given. -/
theorem magnitude_ofMagnitude {m : Nat} (hm : m ≤ infinityMagnitude) (negative : Bool) :
    (ofMagnitude negative m).magnitude = m ∧ (ofMagnitude negative m).negative = negative := by
  have hbound : m ≤ 2047 * 2 ^ 52 := hm
  have hpow : Nat.pow 2 63 = 2 ^ 63 := rfl
  unfold ofMagnitude magnitude Double.negative
  rw [hpow, UInt64.toNat_ofNat']
  -- The sign bit is above every magnitude, so it is added without a carry.
  cases negative with
  | false =>
    rw [if_neg (by decide), Nat.mod_eq_of_lt (show m + 0 < 2 ^ 64 by omega)]
    exact ⟨by omega, decide_eq_false (by omega)⟩
  | true =>
    rw [if_pos rfl, Nat.mod_eq_of_lt (show m + 2 ^ 63 < 2 ^ 64 by omega)]
    exact ⟨by omega, decide_eq_true (by omega)⟩

/-- Doubles with the same sign and the same magnitude are equal. -/
theorem eq_of_magnitude_eq {d d' : Double} (hnegative : d.negative = d'.negative)
    (hmagnitude : d.magnitude = d'.magnitude) : d = d' := by
  obtain ⟨b⟩ := d
  obtain ⟨b'⟩ := d'
  have hpow : Nat.pow 2 63 = 2 ^ 63 := rfl
  have hlt := b.toNat_lt
  have hlt' := b'.toNat_lt
  unfold Double.negative at hnegative
  unfold magnitude at hmagnitude
  rw [hpow] at hnegative hmagnitude
  rw [decide_eq_decide] at hnegative
  dsimp only at hnegative hmagnitude
  exact congrArg mk (UInt64.toNat_inj.mp (by omega))

/-- Decimals from `10 ^ 309` on are read as infinity unseen: all finite doubles are below. -/
theorem two_pow_1024_le : (2 : ℚ) ^ (1024 : ℤ) ≤ 10 ^ (309 : ℤ) := by
  have h : 2 ^ 1024 ≤ 10 ^ 309 := by decide +kernel
  have hcast := Nat.cast_le (α := ℚ).mpr h
  rw [Nat.cast_pow, Nat.cast_pow] at hcast
  exact hcast

/-- Decimals up to `10 ^ -324` are read as 0 unseen: they are at most half of the least double. -/
theorem ten_zpow_le : (10 : ℚ) ^ (-324 : ℤ) ≤ 2 ^ (-1075 : ℤ) := by
  have h : 2 ^ 1075 ≤ 10 ^ 324 := by decide +kernel
  have hcast := Nat.cast_le (α := ℚ).mpr h
  rw [Nat.cast_pow, Nat.cast_pow] at hcast
  rw [zpow_neg, zpow_neg, inv_le_inv₀ (by positivity) (by positivity)]
  exact hcast

/-- `ofDecimal` has the sign of the decimal, and its magnitude is nearest to `coefficient * 10 ^
    exponent`. -/
theorem isNearest_ofDecimal (negative : Bool) (coefficient : Nat) (exponent : Int) :
    (ofDecimal negative coefficient exponent).negative = negative ∧
      IsNearest (coefficient * 10 ^ exponent)
        (ofDecimal negative coefficient exponent).magnitude := by
  have hof : ∀ {m}, IsNearest (coefficient * 10 ^ exponent) m →
      (ofMagnitude negative m).negative = negative ∧
        IsNearest (coefficient * 10 ^ exponent) (ofMagnitude negative m).magnitude := by
    intro m hm
    obtain ⟨hmagnitude, hnegative⟩ := magnitude_ofMagnitude hm.le_infinity negative
    exact ⟨hnegative, hmagnitude.symm ▸ hm⟩
  unfold ofDecimal
  dsimp only
  split
  · next hzero =>
    subst hzero
    exact hof (isNearest_zero (by simp) (by simp))
  · next hzero =>
    have hpos : 0 < coefficient := by omega
    have hwidth : 0 < Decimal.width coefficient := Nat.length_toDigits_pos
    -- Decimals that are far too large or far too small are not computed.
    split
    · next htop =>
      refine hof (isNearest_infinity ?_)
      have hcoefficient : (10 : ℚ) ^ (Decimal.width coefficient - 1) ≤ coefficient := by
        exact_mod_cast Decimal.pow_width_le hpos
      calc (2 : ℚ) ^ (1024 : ℤ) ≤ 10 ^ (309 : ℤ) := two_pow_1024_le
        _ ≤ 10 ^ (((Decimal.width coefficient - 1 : Nat) : ℤ) + exponent) :=
          zpow_le_zpow_right₀ (by norm_num) (by omega)
        _ = 10 ^ (Decimal.width coefficient - 1) * 10 ^ exponent := by
          rw [zpow_add₀ (by norm_num), zpow_natCast]
        _ ≤ coefficient * 10 ^ exponent := by gcongr
    · split
      · next htop =>
        refine hof (isNearest_zero (by positivity) ?_)
        have hcoefficient : (coefficient : ℚ) ≤ 10 ^ Decimal.width coefficient := by
          exact_mod_cast (Decimal.lt_pow_width coefficient).le
        calc (coefficient : ℚ) * 10 ^ exponent ≤
            10 ^ Decimal.width coefficient * 10 ^ exponent := by gcongr
          _ = 10 ^ ((Decimal.width coefficient : ℤ) + exponent) := by
            rw [zpow_add₀ (by norm_num), zpow_natCast]
          _ ≤ 10 ^ (-324 : ℤ) := zpow_le_zpow_right₀ (by norm_num) (by omega)
          _ ≤ 2 ^ (-1075 : ℤ) := ten_zpow_le
      · have hscale := Decimal.scale_cast coefficient 1 exponent
        rw [Nat.cast_one, div_one] at hscale
        have hnearest := isNearest_nearestMagnitude (Decimal.scale coefficient 1 exponent).1
          (Decimal.scale_pos one_pos coefficient exponent)
        rw [hscale] at hnearest
        exact hof hnearest

/-- `ofDecimal` is the only double with this sign and a nearest magnitude. -/
theorem isNearest_iff_ofDecimal_eq {negative : Bool} {coefficient : Nat} {exponent : Int}
    {d : Double} :
    d.negative = negative ∧ IsNearest (coefficient * 10 ^ exponent) d.magnitude ↔
      ofDecimal negative coefficient exponent = d := by
  obtain ⟨hnegative, hnearest⟩ := isNearest_ofDecimal negative coefficient exponent
  constructor
  · rintro ⟨hsign, hd⟩
    exact eq_of_magnitude_eq (hnegative.trans hsign.symm) (hnearest.unique hd)
  · rintro rfl
    exact ⟨hnegative, hnearest⟩

end Double

end Straightline
