import Straightline.Ir.Text
import Straightline.Proofs.Ir.Names

/-!
# Words of the textual IR

What stands for a number, a constant or a name in a text, and that it can be told from what stands
for another one.

* `IsWord` says that a text has bare characters only. Numbers, constants and bare names are words.
* `Double.constantText_injective`, `escapeBytes_injective` and `localName_injective`: different
  constants, bytes and names have different texts.
* `IsOperandText` are words and quoted names. `IsOperandText.append_inj`: where one stands in front
  of something that cannot go on with it, its end can be seen.
-/

namespace Straightline

/-- Lists that are split at the first of their marks are the same on both sides of it. -/
theorem append_cons_inj {α : Type} {mark : α} {cs ds s t : List α} (hcs : mark ∉ cs)
    (hds : mark ∉ ds) (h : cs ++ mark :: s = ds ++ mark :: t) : cs = ds ∧ s = t := by
  induction cs generalizing ds with
  | nil =>
    cases ds with
    | nil => exact ⟨rfl, (List.cons.inj h).2⟩
    | cons d ds => exact absurd (List.cons.inj h).1 (List.ne_of_not_mem_cons hds)
  -- The first mark ends both lists, so neither can end earlier.
  | cons c cs ih =>
    cases ds with
    | nil => exact absurd (List.cons.inj h).1.symm (List.ne_of_not_mem_cons hcs)
    | cons d ds =>
      obtain ⟨rfl, hrest⟩ := List.cons.inj h
      obtain ⟨rfl, hst⟩ :=
        ih (List.not_mem_of_not_mem_cons hcs) (List.not_mem_of_not_mem_cons hds) hrest
      exact ⟨rfl, hst⟩

/-! ### Words -/

/-- The characters of words: those of bare names, and the signs that numbers and names start
    with. -/
def isBareChar (c : Char) : Bool := isNameChar c || c = '+' || c = '%' || c = '@'

/-- `IsWord cs`: the text has bare characters only. -/
def IsWord (cs : List Char) : Prop := ∀ c ∈ cs, isBareChar c = true

instance (cs : List Char) : Decidable (IsWord cs) :=
  List.decidableBAll (fun c => isBareChar c = true) cs

theorem IsWord.append {cs ds : List Char} (hcs : IsWord cs) (hds : IsWord ds) : IsWord (cs ++ ds) :=
  fun c hc => (List.mem_append.mp hc).elim (hcs c) (hds c)

theorem IsWord.cons {c : Char} {cs : List Char} (hc : isBareChar c = true) (hcs : IsWord cs) :
    IsWord (c :: cs) :=
  List.forall_mem_cons.mpr ⟨hc, hcs⟩

/-- A character that is not bare stands in no word. -/
theorem IsWord.notMem {c : Char} (hc : isBareChar c = false) {cs : List Char} (hcs : IsWord cs) :
    c ∉ cs := by
  intro h
  rw [hcs c h] at hc
  cases hc

/-! ### Numbers -/

/-- The characters of a number in some base are the digits of that base. -/
theorem mem_toDigits {base n : Nat} (hbase : 1 < base) {c : Char} (h : c ∈ Nat.toDigits base n) :
    ∃ k < base, c = Nat.digitChar k := by
  induction n using Nat.strongRecOn with
  | ind n ih =>
    rw [Nat.toDigits_eq_if hbase] at h
    split at h
    · next hn => exact ⟨n, hn, List.mem_singleton.mp h⟩
    · next hn =>
      rcases List.mem_append.mp h with h | h
      · exact ih (n / base) (Nat.div_lt_self (by omega) hbase) h
      · exact ⟨n % base, Nat.mod_lt n (by omega), List.mem_singleton.mp h⟩

theorem isWord_replicate_zero (n : Nat) : IsWord (List.replicate n '0') := by
  intro c hc
  rw [List.eq_of_mem_replicate hc]
  decide

/-- `Decimal.digits` are a word. -/
theorem isWord_digits (n : Nat) : IsWord (Decimal.digits n) := by
  intro c hc
  obtain ⟨k, hk, rfl⟩ := mem_toDigits (by decide) hc
  have hdigit : ∀ k < 10, isBareChar (Nat.digitChar k) = true := by decide
  exact hdigit k hk

/-- `Decimal.padded` are a word. -/
theorem isWord_padded (width n : Nat) : IsWord (Decimal.padded width n) :=
  (isWord_replicate_zero _).append (isWord_digits n)

/-- `Text.hexDigits` are a word. -/
theorem isWord_hexDigits (width n : Nat) : IsWord (Text.hexDigits width n) := by
  refine (isWord_replicate_zero _).append fun c hc => ?_
  obtain ⟨d, hmem, rfl⟩ := List.mem_map.mp hc
  obtain ⟨k, hk, rfl⟩ := mem_toDigits (by decide) hmem
  have hdigit : ∀ k < 16, isBareChar (Nat.digitChar k).toUpper = true := by decide
  exact hdigit k hk

theorem toList_text (n : Nat) : (Decimal.text n).toList = Decimal.digits n := String.toList_ofList

/-- `Decimal.intText` is a word. -/
theorem isWord_intText (n : Int) : IsWord (Decimal.intText n).toList := by
  unfold Decimal.intText
  rw [String.toList_append, toList_text]
  refine IsWord.append ?_ (isWord_digits _)
  split <;> decide

/-- The number that hexadecimal digits stand for. -/
def ofHexDigits (cs : List Char) : Nat := cs.foldl (fun n c => 16 * n + (Text.hexValue? c).getD 0) 0

/-- The last digit counts once, and the others sixteen times. -/
theorem ofHexDigits_append_singleton (cs : List Char) (c : Char) :
    ofHexDigits (cs ++ [c]) = 16 * ofHexDigits cs + (Text.hexValue? c).getD 0 := by
  simp [ofHexDigits]

/-- Zeros in front change nothing. -/
theorem ofHexDigits_replicate_append (k : Nat) (cs : List Char) :
    ofHexDigits (List.replicate k '0' ++ cs) = ofHexDigits cs := by
  induction k with
  | zero => rfl
  | succ k ih => rwa [List.replicate_succ]

/-- `ofHexDigits` reads a number back from its digits in upper case. -/
theorem ofHexDigits_toDigits (n : Nat) :
    ofHexDigits ((Nat.toDigits 16 n).map Char.toUpper) = n := by
  have hvalue : ∀ k < 16, (Text.hexValue? (Nat.digitChar k).toUpper).getD 0 = k := by decide
  induction n using Nat.strongRecOn with
  | ind n ih =>
    rw [Nat.toDigits_eq_if (by decide)]
    split
    · next hn =>
      show 16 * 0 + (Text.hexValue? (Nat.digitChar n).toUpper).getD 0 = n
      rw [hvalue n hn, Nat.mul_zero, Nat.zero_add]
    · next hn =>
      have hlast : n % 16 < 16 := Nat.mod_lt n (by decide)
      rw [List.map_append, List.map_singleton, ofHexDigits_append_singleton,
        ih (n / 16) (Nat.div_lt_self (by omega) (by decide)), hvalue _ hlast]
      exact Nat.div_add_mod n 16

/-- `ofHexDigits` reads a number back from `hexDigits`, whatever the width. -/
theorem ofHexDigits_hexDigits (width n : Nat) : ofHexDigits (Text.hexDigits width n) = n := by
  rw [Text.hexDigits, ofHexDigits_replicate_append, ofHexDigits_toDigits]

/-- Different numbers have different digits in base sixteen. -/
theorem hexDigits_injective {width n k : Nat}
    (h : Text.hexDigits width n = Text.hexDigits width k) :
    n = k := by
  have := congrArg ofHexDigits h
  rwa [ofHexDigits_hexDigits, ofHexDigits_hexDigits] at this

/-- Different integers have different texts. -/
theorem Decimal.intText_injective {n k : Int} (h : intText n = intText k) : n = k := by
  have hdigit : ∀ m : Nat, '-' ∉ (text m).toList := by
    intro m hmem
    rw [toList_text] at hmem
    obtain ⟨i, hi, hc⟩ := mem_toDigits (by decide) hmem
    have : ∀ i < 10, '-' ≠ Nat.digitChar i := by decide
    exact this i hi hc
  have hlist := congrArg String.toList h
  rw [intText, intText, String.toList_append, String.toList_append] at hlist
  -- Only the text of a negative number has a minus in it.
  by_cases hn : n < 0
  · by_cases hk : k < 0
    · rw [if_pos hn, if_pos hk] at hlist
      have := text_injective (String.toList_inj.mp (List.append_cancel_left hlist))
      omega
    · rw [if_pos hn, if_neg hk] at hlist
      exact absurd (hlist ▸ by simp : '-' ∈ "".toList ++ (text k.natAbs).toList)
        (by simpa using hdigit _)
  · by_cases hk : k < 0
    · rw [if_neg hn, if_pos hk] at hlist
      exact absurd (hlist ▸ by simp : '-' ∈ "".toList ++ (text n.natAbs).toList)
        (by simpa using hdigit _)
    · rw [if_neg hn, if_neg hk] at hlist
      have := text_injective (String.toList_inj.mp (List.append_cancel_left hlist))
      omega

/-! ### Constants -/

namespace Double

/-- There is no `e` in `signText ++ withPoint`, so this is where the text is cut. -/
theorem e_notMem_signText_withPoint (d : Double) (places c : Nat) :
    'e' ∉ d.signText ++ withPoint places c := by
  have hdigits : ∀ n, 'e' ∉ Decimal.digits n := by
    intro n h
    obtain ⟨k, hk, heq⟩ := mem_toDigits (by decide) h
    have hdigit : ∀ k < 10, 'e' ≠ Nat.digitChar k := by decide
    exact hdigit k hk heq
  have hsign : 'e' ∉ d.signText := by
    unfold signText
    split <;> decide
  have hpadded : ∀ width n, 'e' ∉ Decimal.padded width n := by
    intro width n h
    rcases List.mem_append.mp h with h | h
    · exact absurd (List.eq_of_mem_replicate h) (by decide)
    · exact hdigits n h
  -- The sign, the digit in front of the point and the padded places have no `e` each.
  simp [withPoint, hsign, hdigits, hpadded]

/-- `scientific?` gives a text for a finite double only. Its exponent is read from the text of the
    decade. -/
theorem exists_of_scientific? {d : Double} {places : Nat} {t : List Char}
    (h : d.scientific? places = some t) :
    ∃ m e k, d.view = .finite m e ∧
      Numeral.readInt32? (Decimal.intText (rounded places m e).2).toList = some k ∧
      t = d.signText ++ withPoint places (rounded places m e).1 ++ exponentText k := by
  rw [scientific?, Option.bind_eq_some_iff] at h
  obtain ⟨cs, hcs, ht⟩ := h
  unfold exponential? at hcs
  split at hcs
  · next m e hview =>
    obtain rfl := Option.some.inj hcs
    -- The first `e` is the one in front of the exponent, so the text is split there.
    rw [respell?, Text.splitOnce?_append_cons (d.e_notMem_signText_withPoint _ _), Option.bind_some,
      Option.map_eq_some_iff] at ht
    obtain ⟨k, hk, rfl⟩ := ht
    exact ⟨m, e, k, hview, hk, rfl⟩
  · cases hcs

/-- `constantText` is a word, in either form. -/
theorem isWord_constantText (d : Double) : IsWord d.constantText := by
  have hhex : IsWord d.hexText := .cons (by decide) (.cons (by decide) (isWord_hexDigits _ _))
  have hpoint : ∀ c, IsWord (withPoint 6 c) := fun c =>
    (isWord_digits _).append (.cons (by decide) (isWord_padded _ _))
  have hexponent : ∀ k, IsWord (exponentText k) := by
    intro k
    refine .cons (by decide) (.cons ?_ (isWord_padded _ _))
    split <;> decide
  have hsign : IsWord d.signText := by
    unfold signText
    split <;> decide
  have hscientific : ∀ t, d.scientific? 6 = some t → IsWord t := by
    intro t ht
    obtain ⟨m, e, k, -, -, rfl⟩ := exists_of_scientific? ht
    exact (hsign.append (hpoint _)).append (hexponent _)
  -- The decimal form if it is read back, and the hexadecimal one otherwise.
  unfold constantText
  split
  · next t ht =>
    split
    · exact hscientific t ht
    · exact hhex
  · exact hhex

/-- `read?` reads no number from the bits in base sixteen. -/
theorem read?_hexText (d : Double) : read? d.hexText = none := rfl

/-- `constantText` is a decimal that reads back, or `hexText`. -/
theorem constantText_eq (d : Double) :
    read? d.constantText = some d ∨ d.constantText = d.hexText := by
  unfold constantText
  split
  · split
    · next h => exact .inl h
    · exact .inr rfl
  · exact .inr rfl

/-- Different doubles have different bits. -/
theorem hexText_injective {d e : Double} (h : d.hexText = e.hexText) : d = e := by
  have hbits := hexDigits_injective (List.cons.inj (List.cons.inj h).2).2
  cases d
  cases e
  exact congrArg mk (UInt64.toNat_inj.mp hbits)

/-- Different doubles have different texts, down to the last bit. -/
theorem constantText_injective {d e : Double} (h : d.constantText = e.constantText) : d = e := by
  rcases constantText_eq d with hd | hd <;> rcases constantText_eq e with he | he
  · rw [h, he] at hd
    exact (Option.some.inj hd).symm
  · rw [h, he, read?_hexText] at hd
    cases hd
  · rw [← h, hd, read?_hexText] at he
    cases he
  · exact hexText_injective (hd ▸ he ▸ h)

end Double

/-! ### Bytes between quotes -/

/-- A plain byte is printable, and neither a quote nor a backslash. -/
theorem isPlainByte_iff (b : UInt8) :
    isPlainByte b = true ↔ (32 ≤ b.toNat ∧ b.toNat ≤ 126) ∧ b.toNat ≠ 34 ∧ b.toNat ≠ 92 := by
  simp [isPlainByte, UInt8.le_iff_toNat_le, ← UInt8.toNat_inj, and_assoc]

/-- `escapeByte` writes a plain byte as its character. -/
theorem escapeByte_of_plain {b : UInt8} (h : isPlainByte b = true) :
    escapeByte b = [Char.ofNat b.toNat] := if_pos h

/-- `escapeByte` writes any other byte as a backslash and two digits. -/
theorem escapeByte_of_not_plain {b : UInt8} (h : isPlainByte b = false) :
    escapeByte b = '\\' :: Text.hexDigits 2 b.toNat := by
  rw [escapeByte, h]
  rfl

/-- A plain byte can be read back from its character. -/
theorem toNat_ofNat_of_plain {b : UInt8} (h : isPlainByte b = true) :
    (Char.ofNat b.toNat).toNat = b.toNat := by
  have hchar : ∀ n ≤ 126, (Char.ofNat n).toNat = n := by decide
  exact hchar _ ((isPlainByte_iff b).mp h).1.2

/-- `escapeByte` gives neither a quote nor a newline. -/
theorem notMem_escapeByte (b : UInt8) : '"' ∉ escapeByte b ∧ '\n' ∉ escapeByte b := by
  cases hb : isPlainByte b with
  | true =>
    have hchar := toNat_ofNat_of_plain hb
    obtain ⟨⟨hlow, -⟩, hquote, -⟩ := (isPlainByte_iff b).mp hb
    rw [escapeByte_of_plain hb, List.mem_singleton, List.mem_singleton]
    constructor
    · intro h
      rw [← h] at hchar
      -- A plain byte is its own character, and it is neither the quote nor below the blank.
      exact hquote hchar.symm
    · intro h
      rw [← h] at hchar
      exact absurd (hchar ▸ hlow : 32 ≤ '\n'.toNat) (by decide)
  | false =>
    rw [escapeByte_of_not_plain hb, List.mem_cons, List.mem_cons]
    have hword := isWord_hexDigits 2 b.toNat
    exact ⟨not_or.mpr ⟨by decide, hword.notMem (by decide)⟩,
      not_or.mpr ⟨by decide, hword.notMem (by decide)⟩⟩

/-- `escapeBytes` gives no quote. -/
theorem quote_notMem_escapeBytes (bytes : ByteArray) : '"' ∉ (escapeBytes bytes).toList := by
  rw [escapeBytes, String.toList_ofList, List.mem_flatMap]
  rintro ⟨b, -, hb⟩
  exact (notMem_escapeByte b).1 hb

/-- Two digits are enough for a byte. -/
theorem length_hexDigits_byte (b : UInt8) : (Text.hexDigits 2 b.toNat).length = 2 := by
  have hbyte : ∀ n < 256, (Text.hexDigits 2 n).length = 2 := by decide +kernel
  exact hbyte _ b.toNat_lt

/-- The end of `escapeByte` can be seen, and the byte. -/
theorem escapeByte_append_inj {a b : UInt8} {s t : List Char}
    (h : escapeByte a ++ s = escapeByte b ++ t) : a = b ∧ s = t := by
  -- A backslash that stands for itself is no plain byte.
  have hmixed : ∀ {a b : UInt8} {s t : List Char}, isPlainByte a = true → isPlainByte b = false →
      escapeByte a ++ s ≠ escapeByte b ++ t := by
    intro a b s t ha hb h
    rw [escapeByte_of_plain ha, escapeByte_of_not_plain hb] at h
    have hchar := toNat_ofNat_of_plain ha
    rw [(List.cons.inj h).1] at hchar
    exact ((isPlainByte_iff a).mp ha).2.2 hchar.symm
  cases ha : isPlainByte a <;> cases hb : isPlainByte b
  · rw [escapeByte_of_not_plain ha, escapeByte_of_not_plain hb] at h
    have hlength := (length_hexDigits_byte a).trans (length_hexDigits_byte b).symm
    obtain ⟨hdigits, hrest⟩ := List.append_inj (List.cons.inj h).2 hlength
    exact ⟨UInt8.toNat_inj.mp (hexDigits_injective hdigits), hrest⟩
  · exact absurd h.symm (hmixed hb ha)
  · exact absurd h (hmixed ha hb)
  · rw [escapeByte_of_plain ha, escapeByte_of_plain hb] at h
    obtain ⟨hchar, hrest⟩ := List.cons.inj h
    have hnat := congrArg Char.toNat hchar
    rw [toNat_ofNat_of_plain ha, toNat_ofNat_of_plain hb] at hnat
    exact ⟨UInt8.toNat_inj.mp hnat, hrest⟩

theorem escapeByte_ne_nil (b : UInt8) : escapeByte b ≠ [] := by
  unfold escapeByte
  split <;> simp

/-- Different bytes in a row have different texts. -/
theorem flatMap_escapeByte_injective {as bs : List UInt8}
    (h : as.flatMap escapeByte = bs.flatMap escapeByte) : as = bs := by
  induction as generalizing bs with
  | nil =>
    cases bs with
    | nil => rfl
    | cons b bs => exact absurd h.symm (by simp [escapeByte_ne_nil b])
  | cons a as ih =>
    cases bs with
    | nil => exact absurd h (by simp [escapeByte_ne_nil a])
    | cons b bs =>
      rw [List.flatMap_cons, List.flatMap_cons] at h
      obtain ⟨rfl, hrest⟩ := escapeByte_append_inj h
      rw [ih hrest]

/-- `escapeBytes` is injective. -/
theorem escapeBytes_injective {as bs : ByteArray} (h : escapeBytes as = escapeBytes bs) :
    as = bs := by
  have hbytes := flatMap_escapeByte_injective (String.ofList_inj.mp h)
  exact ByteArray.ext (Array.toList_inj.mp hbytes)

/-! ### Names -/

/-- Every character of a bare name is one that names go on with. -/
theorem isNameChar_of_isBareName {cs : List Char} (h : isBareName cs = true) :
    ∀ c ∈ cs, isNameChar c = true := by
  cases cs with
  | nil => simp
  | cons c cs =>
    rw [isBareName, Bool.and_eq_true, Bool.and_eq_true, List.all_eq_true] at h
    simpa using ⟨h.1.1, h.2⟩

/-- `localName` writes a bare name as it is, behind `%`. -/
theorem localName_of_bare {name : String} (h : isBareName name.toList = true) :
    (localName name).toList = '%' :: name.toList := by
  rw [localName, if_pos h, String.toList_append]
  rfl

/-- `localName` writes any other name as its bytes between quotes. -/
theorem localName_of_not_bare {name : String} (h : isBareName name.toList = false) :
    (localName name).toList = '%' :: '"' :: ((escapeBytes name.toByteArray).toList ++ ['"']) := by
  rw [localName, h, if_neg (by decide), String.toList_append, String.toList_append]
  rfl

/-- The name of a local starts with `%`. -/
theorem head?_localName (name : String) : (localName name).toList.head? = some '%' := by
  cases hbare : isBareName name.toList with
  | true => rw [localName_of_bare hbare]; rfl
  | false => rw [localName_of_not_bare hbare]; rfl

/-- Different names are written differently. -/
theorem localName_injective {s t : String} (h : localName s = localName t) : s = t := by
  -- A bare name has no quote in it.
  have hmixed : ∀ {s t : String}, isBareName s.toList = true → isBareName t.toList = false →
      localName s ≠ localName t := by
    intro s t hs ht h
    have hlist := congrArg String.toList h
    rw [localName_of_bare hs, localName_of_not_bare ht] at hlist
    have hquote : '"' ∈ s.toList := by
      rw [(List.cons.inj hlist).2]
      exact List.mem_cons_self
    exact absurd (isNameChar_of_isBareName hs _ hquote) (by decide)
  have hlist := congrArg String.toList h
  cases hs : isBareName s.toList <;> cases ht : isBareName t.toList
  · rw [localName_of_not_bare hs, localName_of_not_bare ht] at hlist
    have hbytes := List.append_cancel_right (List.cons.inj (List.cons.inj hlist).2).2
    exact String.toByteArray_inj.mp (escapeBytes_injective (String.toList_inj.mp hbytes))
  · exact absurd h.symm (hmixed ht hs)
  · exact absurd h (hmixed hs ht)
  · rw [localName_of_bare hs, localName_of_bare ht] at hlist
    exact String.toList_inj.mp (List.cons.inj hlist).2

/-! ### Operands -/

/-- `IsOperandText cs`: the text stands for an operand, as a word or a name between quotes. -/
inductive IsOperandText : List Char → Prop
  | word {cs : List Char} : IsWord cs → IsOperandText cs
  | quoted {cs : List Char} : '"' ∉ cs → IsOperandText ('%' :: '"' :: (cs ++ ['"']))

/-- `Breaks cs`: the text cannot go on with what stands in front of it. -/
def Breaks (cs : List Char) : Prop := ∀ c ∈ cs.head?, isBareChar c = false ∧ c ≠ '"'

instance (cs : List Char) : Decidable (Breaks cs) :=
  Option.decidableForallMem cs.head?

/-- A word ends where the text behind it breaks. -/
theorem IsWord.append_inj {cs ds s t : List Char} (hcs : IsWord cs) (hds : IsWord ds)
    (hs : Breaks s) (ht : Breaks t) (h : cs ++ s = ds ++ t) : cs = ds ∧ s = t := by
  -- A word is what can be taken from the front up to the break.
  have htake : ∀ {cs s : List Char}, IsWord cs → Breaks s →
      (cs ++ s).takeWhile isBareChar = cs := by
    intro cs s hcs hs
    rw [List.takeWhile_append_of_pos hcs]
    cases s with
    | nil => simp
    | cons c s => rw [List.takeWhile_cons_of_neg (by simp [(hs c rfl).1]), List.append_nil]
  have hword : cs = ds := by rw [← htake hcs hs, h, htake hds ht]
  subst hword
  exact ⟨rfl, List.append_cancel_left h⟩

/-- The text of an operand, word or quoted, ends where the text behind it breaks. -/
theorem IsOperandText.append_inj {cs ds s t : List Char} (hcs : IsOperandText cs)
    (hds : IsOperandText ds) (hs : Breaks s) (ht : Breaks t) (h : cs ++ s = ds ++ t) :
    cs = ds ∧ s = t := by
  -- The quote at the start of a quoted name is in no word, and breaks none.
  have hmixed : ∀ {cs ds s t : List Char}, IsWord cs → Breaks s →
      cs ++ s ≠ '%' :: '"' :: (ds ++ ['"']) ++ t := by
    intro cs ds s t hcs hs h
    match cs with
    | [] =>
      have hhead : s.head? = some '%' := congrArg List.head? h
      exact absurd (hs _ hhead).1 (by decide)
    | [c] =>
      have hhead : s.head? = some '"' := congrArg List.head? (List.cons.inj h).2
      exact absurd rfl (hs _ hhead).2
    | c :: c' :: cs =>
      have hc : c' = '"' := (List.cons.inj (List.cons.inj h).2).1
      exact absurd (hcs c' (by simp)) (by rw [hc]; decide)
  cases hcs with
  | word hcs =>
    cases hds with
    | word hds => exact hcs.append_inj hds hs ht h
    | quoted hds => exact absurd h (hmixed hcs hs)
  | quoted hcs =>
    cases hds with
    | word hds => exact absurd h.symm (hmixed hds ht)
    | quoted hds =>
      simp only [List.cons_append, List.append_assoc, List.nil_append, List.cons.injEq,
        true_and] at h
      obtain ⟨rfl, rfl⟩ := append_cons_inj hcs hds h
      exact ⟨rfl, rfl⟩

/-- `localName` gives the text of an operand. -/
theorem isOperandText_localName (name : String) : IsOperandText (localName name).toList := by
  cases h : isBareName name.toList with
  | true =>
    rw [localName_of_bare h]
    refine .word (.cons (by decide) fun c hc => ?_)
    rw [isBareChar, isNameChar_of_isBareName h c hc]
    rfl
  | false =>
    rw [localName_of_not_bare h]
    exact .quoted (quote_notMem_escapeBytes _)

namespace Body

/-- `b.IsNamed m x`: `x` has something to be written as. A result has to have a name, and a constant
    has to be in the module. -/
def IsNamed (b : Body) (m : Module) : Operand → Prop
  | .inst i => ∃ inst name, b.instructions[i]? = some inst ∧ inst.name = some name
  | .global i => ∃ g, m.globals[i]? = some g
  | _ => True

/-- `operandText` gives the text of an operand, if it has one. -/
theorem isOperandText_operandText {b : Body} {m : Module} {x : Operand} (hx : b.IsNamed m x) :
    IsOperandText (b.operandText m x).toList := by
  unfold operandText
  cases x with
  | double d =>
    rw [String.toList_ofList]
    exact .word d.isWord_constantText
  | i32 n => exact .word (isWord_intText _)
  | global i =>
    obtain ⟨g, hg⟩ := hx
    simp only [hg, String.toList_append, toList_text]
    exact .word (.cons (by decide) (isWord_digits g.number))
  | inst i =>
    -- An operand that is named has a result with a name, so the placeholder is not printed.
    obtain ⟨inst, name, hi, hname⟩ := hx
    simp only [hi, Option.bind_some, hname]
    exact isOperandText_localName name

end Body

end Straightline
