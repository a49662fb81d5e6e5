import Straightline.Text.Unprintable

/-!
# Quoted text

A text between double quotes in which every character can be seen: quotes, backslashes and controls
are escaped, and a character without a glyph of its own is given by its code point.

* `quoted` writes a text in this form.
-/

namespace Straightline.Text

/-- An opening brace, as a character of a text. -/
def openBrace : Char := Char.ofNat 0x7B

/-- A closing brace, as a character of a text. -/
def closeBrace : Char := Char.ofNat 0x7D

/-- How a character stands inside quotes. -/
def quotedChar (c : Char) : List Char :=
  match c with
  | '\x00' => ['\\', '0']
  | '\t' => ['\\', 't']
  | '\r' => ['\\', 'r']
  | '\n' => ['\\', 'n']
  | '\\' => ['\\', '\\']
  | '"' => ['\\', '"']
  | c =>
    if isUnprintable c then '\\' :: 'u' :: openBrace :: Nat.toDigits 16 c.toNat ++ [closeBrace]
    else [c]

/-- The text between double quotes. -/
def quoted (s : String) : String :=
  String.ofList ('"' :: s.toList.flatMap quotedChar ++ ['"'])

end Straightline.Text
