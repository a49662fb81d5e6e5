/-!
# Bytes as text

* `decodeLossy` reads bytes as UTF-8 and puts the replacement character where they are not.
-/

namespace Straightline.Text

/-- The replacement character. -/
def replacement : Char := Char.ofNat 0xFFFD

/-- What a first byte calls for: how many continuation bytes, and the range of the first of them.
    The ranges leave out overlong forms, surrogates and numbers that are no code points. -/
def continuation? (b : UInt8) : Option (Nat × UInt8 × UInt8) :=
  if b < 0x80 then some (0, 0x80, 0xBF)
  else if b < 0xC2 then none
  else if b < 0xE0 then some (1, 0x80, 0xBF)
  -- The narrower ranges leave out overlong forms, surrogates and what is above `0x10FFFF`.
  else if b = 0xE0 then some (2, 0xA0, 0xBF)
  else if b = 0xED then some (2, 0x80, 0x9F)
  else if b < 0xF0 then some (2, 0x80, 0xBF)
  else if b = 0xF0 then some (3, 0x90, 0xBF)
  else if b < 0xF4 then some (3, 0x80, 0xBF)
  else if b = 0xF4 then some (3, 0x80, 0x8F)
  else none

/-- At most `n` continuation bytes, the first of them between `low` and `high`. -/
def takeContinuation (low high : UInt8) : Nat → List UInt8 → List UInt8
  | n + 1, b :: bs => if low ≤ b ∧ b ≤ high then b :: takeContinuation 0x80 0xBF n bs else []
  | _, _ => []

/-- The code point of a first byte and its `n` continuation bytes. -/
def assemble (n : Nat) (first : UInt8) (rest : List UInt8) : Char :=
  let lead := if n = 0 then first.toNat else first.toNat % Nat.pow 2 (6 - n)
  Char.ofNat (rest.foldl (fun v b => v * 64 + b.toNat % 64) lead)

/-- Bytes as characters. Every longest part that begins a well-formed sequence without completing
    it, and every byte that begins none, becomes one replacement character. -/
def decodeReplacing : List UInt8 → List Char
  | [] => []
  | b :: bs =>
    match continuation? b with
    | none => replacement :: decodeReplacing bs
    | some (n, low, high) =>
      let tail := takeContinuation low high n bs
      -- One replacement for the longest start of a character, not for each byte.
      let c := if tail.length = n then assemble n b tail else replacement
      c :: decodeReplacing (bs.drop tail.length)
termination_by bs => bs.length

/-- The text of a sequence of bytes: as it stands if they are UTF-8, else with replacements. -/
def decodeLossy (bytes : ByteArray) : String :=
  match String.fromUTF8? bytes with
  | some s => s
  | none => String.ofList (decodeReplacing bytes.data.toList)

/-- Only the bytes of a text are read as that text. -/
theorem fromUTF8?_eq_some_iff {bytes : ByteArray} {s : String} :
    String.fromUTF8? bytes = some s ↔ bytes = s.toByteArray := by
  unfold String.fromUTF8?
  split
  · rw [Option.some.injEq]
    constructor
    · rintro rfl
      rfl
    · rintro rfl
      rfl
  · next h =>
    refine ⟨nofun, fun heq => absurd ?_ h⟩
    rw [heq]
    exact s.isValidUTF8

@[simp] theorem decodeLossy_toByteArray (s : String) : decodeLossy s.toByteArray = s := by
  simp [decodeLossy, String.fromUTF8?, String.fromUTF8, s.isValidUTF8]

end Straightline.Text
