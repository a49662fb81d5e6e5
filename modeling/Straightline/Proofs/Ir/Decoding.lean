import Straightline.Proofs.Ir.Recovery

/-!
# Bytes read back from text

* `decodeBytes?` reads a text between quotes: a backslash and two hexadecimal digits are the byte
  with that value, and any other character is itself.
* `decodeBytes?_escapeBytes_append`: it gives back the bytes that were written.
* `Global.exists_literal`: the line of a constant declares as many bytes as it has, and one more,
  and has them between quotes with a NUL behind them.
-/

namespace Straightline

/-- The bytes that a text between quotes stands for. A backslash needs two hexadecimal digits behind
    it. -/
def decodeBytes? : List Char → Option (List UInt8)
  | [] => some []
  | '\\' :: x :: y :: cs => do
    let high ← Text.hexValue? x
    let low ← Text.hexValue? y
    let bytes ← decodeBytes? cs
    return UInt8.ofNat (16 * high + low) :: bytes
  | c :: cs => do
    if c = '\\' then none
    let bytes ← decodeBytes? cs
    return String.utf8EncodeChar c ++ bytes

/-- A character that is no backslash stands for its own bytes. -/
theorem decodeBytes?_cons {c : Char} (hc : c ≠ '\\') (cs : List Char) :
    decodeBytes? (c :: cs) = (decodeBytes? cs).map (String.utf8EncodeChar c ++ ·) := by
  rw [decodeBytes?.eq_3 _ _ fun _ _ _ h => absurd h hc]
  cases decodeBytes? cs <;> simp [hc]

/-- The two digits of a byte are its two halves. -/
theorem hexValue?_hexDigits (b : UInt8) :
    (Text.hexDigits 2 b.toNat).map Text.hexValue? = [some (b.toNat / 16), some (b.toNat % 16)] := by
  have hbyte : ∀ n < 256, (Text.hexDigits 2 n).map Text.hexValue? =
      [some (n / 16), some (n % 16)] := by
    decide +kernel
  exact hbyte _ b.toNat_lt

/-- `decodeBytes?` reads `escapeByte b` as `b`, whatever is behind it. -/
theorem decodeBytes?_escapeByte_append (b : UInt8) (cs : List Char) :
    decodeBytes? (escapeByte b ++ cs) = (decodeBytes? cs).map (b :: ·) := by
  cases hb : isPlainByte b with
  | true =>
    -- A plain byte is a character of one byte, and it is no backslash.
    obtain ⟨⟨-, hhigh⟩, -, hbackslash⟩ := (isPlainByte_iff b).mp hb
    have hchar := toNat_ofNat_of_plain hb
    have hc : Char.ofNat b.toNat ≠ '\\' := by
      intro h
      rw [h] at hchar
      exact hbackslash hchar.symm
    have hencode : String.utf8EncodeChar (Char.ofNat b.toNat) = [b] := by
      have hbyte : ∀ n ≤ 126, String.utf8EncodeChar (Char.ofNat n) = [UInt8.ofNat n] := by
        decide +kernel
      rw [hbyte _ hhigh, UInt8.ofNat_toNat]
    rw [escapeByte_of_plain hb, List.singleton_append, decodeBytes?_cons hc, hencode]
    rfl
  | false =>
    obtain ⟨x, y, hxy⟩ := List.length_eq_two.mp (length_hexDigits_byte b)
    have hvalues := hexValue?_hexDigits b
    have hjoin : UInt8.ofNat (16 * (b.toNat / 16) + b.toNat % 16) = b := by
      rw [Nat.div_add_mod, UInt8.ofNat_toNat]
    rw [hxy] at hvalues
    obtain ⟨hx, hy⟩ : Text.hexValue? x = some (b.toNat / 16) ∧
        Text.hexValue? y = some (b.toNat % 16) := by
      simpa using hvalues
    rw [escapeByte_of_not_plain hb, hxy]
    show decodeBytes? ('\\' :: x :: y :: cs) = _
    rw [decodeBytes?, hx, hy]
    cases decodeBytes? cs with
    | none => rfl
    | some bytes => exact congrArg (fun byte => some (byte :: bytes)) hjoin

/-- `decodeBytes?` reads `escapeBytes bytes` as `bytes`, whatever is behind it. -/
theorem decodeBytes?_escapeBytes_append (bytes : ByteArray) (cs : List Char) :
    decodeBytes? ((escapeBytes bytes).toList ++ cs) =
      (decodeBytes? cs).map (bytes.data.toList ++ ·) := by
  rw [escapeBytes, String.toList_ofList]
  induction bytes.data.toList with
  | nil => simp
  | cons b bs ih =>
    rw [List.flatMap_cons, List.append_assoc, decodeBytes?_escapeByte_append, ih, Option.map_map]
    rfl

/-- The line of a constant: its number, how many bytes it takes with the NUL behind it, and these
    bytes between quotes. -/
theorem Global.exists_literal (g : Global) :
    ∃ literal : String, g.text =
      "@" ++ Decimal.text g.number ++ " = private unnamed_addr constant ["
        ++ Decimal.text (g.bytes.size + 1) ++ " x i8] c\"" ++ literal ++ "\", align 1" ∧
      '"' ∉ literal.toList ∧ decodeBytes? literal.toList = some (g.bytes.data.toList ++ [0]) := by
  refine ⟨escapeBytes g.bytes ++ "\\00", ?_, ?_, ?_⟩
  · have hend : "\\00\", align 1" = "\\00" ++ "\", align 1" := rfl
    rw [Global.text, Global.size, hend, ← String.append_assoc, ← String.append_assoc]
  · rw [String.toList_append, List.mem_append, not_or]
    exact ⟨quote_notMem_escapeBytes g.bytes, by decide⟩
  · have hnul : decodeBytes? "\\00".toList = some [0] := by decide +kernel
    rw [String.toList_append, decodeBytes?_escapeBytes_append, hnul]
    rfl

end Straightline
