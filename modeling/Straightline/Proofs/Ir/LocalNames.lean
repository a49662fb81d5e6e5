import Mathlib.Computability.Language
import Straightline.Proofs.Ir.Decoding
import Straightline.Text.Utf8

/-!
# Names read back from text

* `bareNames` is the language of the names that need no quotes, and `isBareName_iff` says that these
  are the names that are written without.
* `EscapesOnly` says that a text has no backslash but in front of two hexadecimal digits.
* `readLocalName?` reads a local name in either form.
* `localName_decodes`: bytes between quotes and local names are read back as what was written.
-/

namespace Straightline

open Computability

/-! ### The names that need no quotes -/

/-- The characters that a bare name starts with: `[-a-zA-Z$._]`. -/
def IsNameStart (c : Char) : Prop :=
  c = '-' ∨ ('a' ≤ c ∧ c ≤ 'z') ∨ ('A' ≤ c ∧ c ≤ 'Z') ∨ c = '$' ∨ c = '.' ∨ c = '_'

/-- The characters that a bare name goes on with: `[-a-zA-Z$._0-9]`. -/
def IsNamePart (c : Char) : Prop := IsNameStart c ∨ ('0' ≤ c ∧ c ≤ '9')

/-- The texts of one character of a kind. -/
def oneOf (kind : Char → Prop) : Language Char := {cs | ∃ c, kind c ∧ cs = [c]}

/-- The names that need no quotes: `[-a-zA-Z$._][-a-zA-Z$._0-9]*`. -/
def bareNames : Language Char := oneOf IsNameStart * (oneOf IsNamePart)∗

/-- A text is made of characters of a kind iff each of its characters is one. -/
theorem mem_kstar_oneOf {kind : Char → Prop} {cs : List Char} :
    cs ∈ (oneOf kind)∗ ↔ ∀ c ∈ cs, kind c := by
  rw [Language.mem_kstar]
  constructor
  · rintro ⟨pieces, rfl, hpieces⟩ c hc
    obtain ⟨piece, hpiece, hc⟩ := List.mem_flatten.mp hc
    obtain ⟨d, hd, rfl⟩ := hpieces piece hpiece
    rwa [List.mem_singleton.mp hc]
  · intro h
    refine ⟨cs.map fun c => [c], by rw [← List.flatMap_def, List.flatMap_singleton'],
      fun piece hpiece => ?_⟩
    obtain ⟨c, hc, rfl⟩ := List.mem_map.mp hpiece
    exact ⟨c, h c hc, rfl⟩

/-- A bare name is a character that starts one and characters that go on with it. -/
theorem mem_bareNames {cs : List Char} :
    cs ∈ bareNames ↔ ∃ c rest, cs = c :: rest ∧ IsNameStart c ∧ ∀ d ∈ rest, IsNamePart d := by
  rw [bareNames, Language.mem_mul]
  constructor
  · rintro ⟨_, ⟨c, hc, rfl⟩, rest, hrest, rfl⟩
    exact ⟨c, rest, rfl, hc, mem_kstar_oneOf.mp hrest⟩
  · rintro ⟨c, rest, rfl, hc, hrest⟩
    exact ⟨[c], ⟨c, hc, rfl⟩, rest, mem_kstar_oneOf.mpr hrest, rfl⟩

theorem isUpper_iff (c : Char) : c.isUpper = true ↔ 'A' ≤ c ∧ c ≤ 'Z' := decide_eq_true_iff

/-- Comparing code points compares characters. -/
theorem inRange_iff {low high c : Char} :
    (decide (low.val ≤ c.val) && decide (c.val ≤ high.val)) = true ↔ low ≤ c ∧ c ≤ high := by
  simp [Char.le_def]

theorem isLower_iff (c : Char) : c.isLower = true ↔ 'a' ≤ c ∧ c ≤ 'z' := @inRange_iff 'a' 'z' c

theorem isDigit_iff (c : Char) : c.isDigit = true ↔ '0' ≤ c ∧ c ≤ '9' := @inRange_iff '0' '9' c

/-- `isNameChar` tells the characters that a bare name goes on with. -/
theorem isNameChar_iff (c : Char) : isNameChar c = true ↔ IsNamePart c := by
  have halphanum : c.isAlphanum = (c.isUpper || c.isLower || c.isDigit) := rfl
  simp only [isNameChar, halphanum, Bool.or_eq_true, isUpper_iff, isLower_iff, isDigit_iff,
    decide_eq_true_eq]
  unfold IsNamePart IsNameStart
  tauto

/-- A bare name starts with any of its characters but a digit. -/
theorem isNameStart_iff (c : Char) : IsNameStart c ↔ IsNamePart c ∧ c.isDigit = false := by
  rw [← Bool.not_eq_true, isDigit_iff]
  constructor
  · intro h
    refine ⟨.inl h, fun ⟨hlow, hhigh⟩ => ?_⟩
    -- The digits lie apart from each of the ranges.
    rcases h with rfl | ⟨ha, -⟩ | ⟨hA, -⟩ | rfl | rfl | rfl
    · exact absurd hlow (by decide)
    · exact absurd (Char.le_trans ha hhigh) (by decide)
    · exact absurd (Char.le_trans hA hhigh) (by decide)
    · exact absurd hlow (by decide)
    · exact absurd hlow (by decide)
    · exact absurd hhigh (by decide)
  · rintro ⟨h | h, hdigit⟩
    · exact h
    · exact absurd h hdigit

/-- `isBareName` tells the names in `bareNames`. -/
theorem isBareName_iff (cs : List Char) : isBareName cs = true ↔ cs ∈ bareNames := by
  rw [mem_bareNames]
  cases cs with
  | nil => simp [isBareName]
  | cons c cs =>
    simp [isBareName, isNameStart_iff, isNameChar_iff]

/-! ### Escapes -/

/-- `IsUpperHex c`: `c` is an upper-case hexadecimal digit. -/
def IsUpperHex (c : Char) : Prop := ('0' ≤ c ∧ c ≤ '9') ∨ ('A' ≤ c ∧ c ≤ 'F')

instance (c : Char) : Decidable (IsUpperHex c) := inferInstanceAs (Decidable (_ ∨ _))

/-- `Text.hexDigits` writes upper-case digits. -/
theorem isUpperHex_of_mem_hexDigits {width n : Nat} {c : Char} (h : c ∈ Text.hexDigits width n) :
    IsUpperHex c := by
  rcases List.mem_append.mp h with h | h
  · rw [List.eq_of_mem_replicate h]
    decide
  · obtain ⟨d, hmem, rfl⟩ := List.mem_map.mp h
    obtain ⟨k, hk, rfl⟩ := mem_toDigits (by decide) hmem
    have hdigit : ∀ k < 16, IsUpperHex (Nat.digitChar k).toUpper := by decide
    exact hdigit k hk

/-- `EscapesOnly cs`: each backslash has two upper-case hexadecimal digits behind it. -/
def EscapesOnly (cs : List Char) : Prop :=
  ∀ before behind, cs = before ++ '\\' :: behind →
    ∃ x y rest, behind = x :: y :: rest ∧ IsUpperHex x ∧ IsUpperHex y

/-- A character that is no backslash is no escape. -/
theorem EscapesOnly.cons {c : Char} {cs : List Char} (hc : c ≠ '\\') (hcs : EscapesOnly cs) :
    EscapesOnly (c :: cs) := by
  intro before behind h
  cases before with
  | nil => exact absurd (List.cons.inj h).1 hc
  | cons d before => exact hcs before behind (List.cons.inj h).2

/-- A backslash with two digits is an escape. -/
theorem EscapesOnly.escape {x y : Char} {cs : List Char} (hx : IsUpperHex x) (hy : IsUpperHex y)
    (hcs : EscapesOnly cs) : EscapesOnly ('\\' :: x :: y :: cs) := by
  have hne : ∀ {z}, IsUpperHex z → z ≠ '\\' := by
    rintro _ hz rfl
    exact absurd hz (by decide)
  intro before behind h
  cases before with
  | nil =>
    obtain rfl := (List.cons.inj h).2
    exact ⟨x, y, cs, rfl, hx, hy⟩
  | cons d before => exact ((hcs.cons (hne hy)).cons (hne hx)) before behind (List.cons.inj h).2

/-- `escapeByte` gives printable characters, and no quote. -/
theorem printable_of_mem_escapeByte {b : UInt8} {c : Char} (h : c ∈ escapeByte b) :
    ' ' ≤ c ∧ c ≤ '~' ∧ c ≠ '"' := by
  have hquote : c ≠ '"' := fun hc => (notMem_escapeByte b).1 (hc ▸ h)
  refine and_assoc.mp ⟨?_, hquote⟩
  cases hb : isPlainByte b with
  | true =>
    have hchar := toNat_ofNat_of_plain hb
    obtain ⟨hrange, -⟩ := (isPlainByte_iff b).mp hb
    rw [escapeByte_of_plain hb, List.mem_singleton] at h
    rw [← h] at hchar
    rw [← hchar] at hrange
    exact hrange
  | false =>
    rw [escapeByte_of_not_plain hb] at h
    rcases List.mem_cons.mp h with rfl | h
    · decide
    · -- Backslash apart, an escape is made of digits and of letters up to `F`.
      rcases isUpperHex_of_mem_hexDigits h with ⟨hlow, hhigh⟩ | ⟨hlow, hhigh⟩
      · exact ⟨Char.le_trans (by decide) hlow, Char.le_trans hhigh (by decide)⟩
      · exact ⟨Char.le_trans (by decide) hlow, Char.le_trans hhigh (by decide)⟩

/-- `escapeByte` gives a backslash only in an escape. -/
theorem EscapesOnly.escapeByte_append (b : UInt8) {cs : List Char} (hcs : EscapesOnly cs) :
    EscapesOnly (escapeByte b ++ cs) := by
  cases hb : isPlainByte b with
  | true =>
    have hchar := toNat_ofNat_of_plain hb
    rw [escapeByte_of_plain hb]
    -- A plain byte is no backslash, so it does not start an escape.
    refine hcs.cons fun h => ?_
    rw [h] at hchar
    exact ((isPlainByte_iff b).mp hb).2.2 hchar.symm
  | false =>
    obtain ⟨x, y, hxy⟩ := List.length_eq_two.mp (length_hexDigits_byte b)
    have hdigit : ∀ z ∈ [x, y], IsUpperHex z := fun z hz => isUpperHex_of_mem_hexDigits (hxy ▸ hz)
    rw [escapeByte_of_not_plain hb, hxy]
    exact hcs.escape (hdigit x (by simp)) (hdigit y (by simp))

/-- `escapeBytes` gives backslashes only in escapes. -/
theorem escapesOnly_escapeBytes (bytes : ByteArray) : EscapesOnly (escapeBytes bytes).toList := by
  rw [escapeBytes, String.toList_ofList]
  induction bytes.data.toList with
  | nil =>
    intro before behind h
    exact absurd h (by simp)
  | cons b bs ih => exact ih.escapeByte_append b

/-! ### Reading names -/

/-- The name that a local name in a text stands for. What stands between quotes is decoded, and any
    other name stands for itself. -/
def readLocalName? : List Char → Option String
  | '%' :: '"' :: cs =>
    if cs.dropWhile (· ≠ '"') = ['"'] then
      (decodeBytes? (cs.takeWhile (· ≠ '"'))).bind fun bytes => String.fromUTF8? ⟨bytes.toArray⟩
    else none
  | '%' :: cs => some (String.ofList cs)
  | _ => none

/-- `decodeBytes?` reads bytes back from between quotes. -/
theorem decodeBytes?_escapeBytes (bytes : ByteArray) :
    decodeBytes? (escapeBytes bytes).toList = some bytes.data.toList := by
  have h := decodeBytes?_escapeBytes_append bytes []
  simpa [decodeBytes?] using h

/-- `readLocalName?` reads a local name back, in either form. -/
theorem readLocalName?_localName (name : String) :
    readLocalName? (localName name).toList = some name := by
  cases hbare : isBareName name.toList with
  | true =>
    -- No quote stands behind the percent sign of a bare name.
    have hquote : '"' ∉ name.toList :=
      fun h => absurd (isNameChar_of_isBareName hbare _ h) (by decide)
    rw [localName_of_bare hbare, readLocalName?.eq_2, String.ofList_toList]
    intro cs hcs
    exact hquote (hcs ▸ List.mem_cons_self)
  | false =>
    have hplain : ∀ c ∈ (escapeBytes name.toByteArray).toList, decide (c ≠ '"') = true := by
      intro c hc
      exact decide_eq_true fun h => quote_notMem_escapeBytes _ (h ▸ hc)
    rw [localName_of_not_bare hbare, readLocalName?, List.dropWhile_append_of_pos hplain,
      List.takeWhile_append_of_pos hplain]
    simpa [decodeBytes?_escapeBytes] using Text.fromUTF8?_eq_some_iff.mpr rfl

/-- `flatMap` makes a list no shorter if each element gives something. -/
theorem length_le_length_flatMap {α β : Type} {f : α → List β} (hf : ∀ a, f a ≠ []) (as : List α) :
    as.length ≤ (as.flatMap f).length := by
  induction as with
  | nil => exact Nat.le_refl _
  | cons a as ih =>
    have := List.length_pos_iff.mpr (hf a)
    rw [List.flatMap_cons, List.length_append, List.length_cons]
    omega

/-- `escapeBytes` gives at least as many characters as the name has. -/
theorem length_le_escapeBytes (name : String) :
    name.toList.length ≤ (escapeBytes name.toByteArray).toList.length := by
  have hbytes : name.toByteArray = (name.toList.flatMap String.utf8EncodeChar).toByteArray :=
    String.utf8Encode_toList.symm
  rw [escapeBytes, String.toList_ofList, hbytes, List.toList_data_toByteArray]
  exact Nat.le_trans (length_le_length_flatMap (fun _ => String.utf8EncodeChar_ne_nil) _)
    (length_le_length_flatMap escapeByte_ne_nil _)

/-- `localName name` is `%` and the name iff the name is in `bareNames`. -/
theorem localName_eq_iff (name : String) :
    localName name = "%" ++ name ↔ name.toList ∈ bareNames := by
  rw [← isBareName_iff]
  constructor
  · intro h
    by_contra hbare
    -- Between quotes a name would be longer than it is.
    have hlist := congrArg String.toList h
    rw [localName_of_not_bare (Bool.eq_false_of_not_eq_true hbare), String.toList_append] at hlist
    have hlength := congrArg List.length hlist
    have hle := length_le_escapeBytes name
    simp at hlength
    omega
  · intro h
    exact if_pos h

/-! ### Bytes and names -/

/-- What stands between quotes is printable, has no quote and no backslash but in escapes, and
    `decodeBytes?` reads it back as the bytes that were written. `localName name` is `%` and the
    name iff it is in `bareNames`, and else its bytes between quotes; `readLocalName?` reads it back
    in either form, so different names are written differently. -/
theorem localName_decodes :
    (∀ bytes : ByteArray,
      (∀ c ∈ (escapeBytes bytes).toList, ' ' ≤ c ∧ c ≤ '~' ∧ c ≠ '"') ∧
      EscapesOnly (escapeBytes bytes).toList ∧
      decodeBytes? (escapeBytes bytes).toList = some bytes.data.toList) ∧
    (∀ name : String,
      (localName name = "%" ++ name ↔ name.toList ∈ bareNames) ∧
      (name.toList ∉ bareNames → localName name = "%\"" ++ escapeBytes name.toByteArray ++ "\"") ∧
      readLocalName? (localName name).toList = some name) ∧
    ∀ name other : String, localName name = localName other → name = other := by
  refine ⟨fun bytes => ⟨fun c hc => ?_, escapesOnly_escapeBytes bytes,
    decodeBytes?_escapeBytes bytes⟩,
    fun name => ⟨localName_eq_iff name, fun hbare => ?_, readLocalName?_localName name⟩,
    fun name other h => localName_injective h⟩
  · rw [escapeBytes, String.toList_ofList] at hc
    obtain ⟨b, -, hc⟩ := List.mem_flatMap.mp hc
    exact printable_of_mem_escapeByte hc
  · exact if_neg fun h => hbare ((isBareName_iff _).mp h)

/-- A name with a letter beyond ASCII is written between quotes. The digit behind the letter is no
    part of an escape. -/
theorem localName_decodes_sample :
    "π1".toList ∉ bareNames ∧ localName "π1" = "%\"" ++ escapeBytes "π1".toByteArray ++ "\"" ∧
      escapeBytes "π1".toByteArray = "\\CF\\801" := by
  have hbare : "π1".toList ∉ bareNames := by
    rw [← isBareName_iff]
    decide
  exact ⟨hbare, (localName_decodes.2.1 "π1").2.1 hbare, by decide +kernel⟩

end Straightline
