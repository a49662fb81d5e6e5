import Straightline.Script.Token
import Straightline.Text.Alphabetic
import Straightline.Text.Numeric

/-!
# Lexemes

The source is cut into blanks and lexemes. A lexeme covers a stretch of text and is a token or a
fault, and after a fault the next lexeme starts behind the text that it covers.

* `splitTrivia` cuts off the blanks and comments in front.
* `scanToken` reads one lexeme; `scanToken_append` says that nothing is lost.
* `lexemes` cuts up the whole source.
-/

namespace Straightline

/-- Why a stretch of text is no token. -/
inductive Fault where
  /-- A character that begins no token. -/
  | unexpectedChar (c : Char)
  /-- A string literal whose line, or the source, ends before its closing quote. -/
  | unterminatedString
  /-- Digits with more than one point. -/
  | invalidNumber
  deriving DecidableEq

/-- A stretch of text read as a token, and what follows it. -/
structure Scan where
  outcome : Except Fault Token
  text : List Char
  rest : List Char

/-- A token or a fault with its text and the byte offset where it starts. -/
structure Lexeme where
  outcome : Except Fault Token
  text : List Char
  offset : Nat

/-- The place of a lexeme in the source. -/
def Lexeme.span (l : Lexeme) : Span := ⟨l.offset, byteLength l.text⟩

/-! ### Blanks -/

/-- Blanks between tokens. A newline is none, since it ends a statement. -/
def isBlank (c : Char) : Bool := c = ' ' || c = '\t' || c = '\r'

/-- The blanks and comments in front of a text, and the rest of it. A comment reaches up to the end
    of its line. -/
def splitTrivia (inComment : Bool) : List Char → List Char × List Char
  | [] => ([], [])
  | c :: cs =>
    if if inComment then c ≠ '\n' else isBlank c || c = '#' then
      let (skipped, rest) := splitTrivia (inComment || c = '#') cs
      (c :: skipped, rest)
    else ([], c :: cs)

/-- `splitTrivia` loses no character. -/
theorem splitTrivia_append (inComment : Bool) (cs : List Char) :
    (splitTrivia inComment cs).1 ++ (splitTrivia inComment cs).2 = cs := by
  fun_induction splitTrivia inComment cs with
  | case1 => rfl
  | case2 inComment c cs _ skipped rest h ih => simpa [h] using ih
  | case3 => rfl

/-! ### Words -/

/-- The characters that may begin a name. -/
def isWordStart (c : Char) : Bool := Text.isAlphabetic c || c = '_'

/-- The characters that may continue a name. -/
def isWordChar (c : Char) : Bool := Text.isAlphabetic c || Text.isNumeric c || c = '_'

/-- The token of a word: a keyword or a name. -/
def wordToken (word : List Char) : Token :=
  let name := String.ofList word
  if name = "print" then .print else .ident name

/-! ### Numbers -/

/-- The characters of a number in front of its exponent. -/
def isNumberChar (c : Char) : Bool := c.isDigit || c = '.'

/-- An exponent in front of a text: a mark, a sign and digits. Without a digit there is none. -/
def splitExponent : List Char → List Char × List Char
  | [] => ([], [])
  | mark :: cs =>
    if mark = 'e' || mark = 'E' then
      let (sign, ds) := match cs with
        | '+' :: ds => (['+'], ds)
        | '-' :: ds => (['-'], ds)
        | ds => ([], ds)
      -- Without a digit the mark is not taken, and a word starts at it.
      if (ds.takeWhile Char.isDigit).isEmpty then ([], mark :: cs)
      else (mark :: sign ++ ds.takeWhile Char.isDigit, ds.dropWhile Char.isDigit)
    else ([], mark :: cs)

/-- `splitExponent` loses no character. -/
theorem splitExponent_append (cs : List Char) :
    (splitExponent cs).1 ++ (splitExponent cs).2 = cs := by
  unfold splitExponent
  split
  · rfl
  · dsimp only
    split
    · split <;> split <;> simp
    · rfl

/-- The number in front of a text: the longest run of digits and points, then an exponent. -/
def scanNumber (cs : List Char) : Scan :=
  let mantissa := cs.takeWhile isNumberChar
  -- All digits and points are taken together, and `Double.read?` refuses a second point.
  let (exponent, rest) := splitExponent (cs.dropWhile isNumberChar)
  let text := mantissa ++ exponent
  match Double.read? text with
  | some value => ⟨.ok (.number value), text, rest⟩
  | none => ⟨.error .invalidNumber, text, rest⟩

/-- `scanNumber` loses no character. -/
theorem scanNumber_append (cs : List Char) :
    (scanNumber cs).text ++ (scanNumber cs).rest = cs := by
  have h := splitExponent_append (cs.dropWhile isNumberChar)
  unfold scanNumber
  dsimp only
  split <;> simp [h]

/-! ### Strings -/

/-- What a backslash and a character stand for inside a string literal. A backslash in front of any
    other character stands for itself. -/
def unescape : Char → List Char
  | 'n' => ['\n']
  | 't' => ['\t']
  | '"' => ['"']
  | '\\' => ['\\']
  | c => ['\\', c]

/-- The inside of a string literal. -/
structure StringScan where
  /-- What the literal stands for, unless its closing quote is missing. -/
  value : Option (List Char)
  text : List Char
  rest : List Char

/-- Put characters in front of what a literal stands for and of its text. -/
def StringScan.cons (value text : List Char) (s : StringScan) : StringScan :=
  { s with value := s.value.map (value ++ ·), text := text ++ s.text }

/-- Read the inside of a string literal up to its closing quote. A newline ends the search and is
    covered, but one behind a backslash is a character like others. -/
def scanString : List Char → StringScan
  | [] => ⟨none, [], []⟩
  | '"' :: cs => ⟨some [], ['"'], cs⟩
  -- The line end is part of what is refused.
  | '\n' :: cs => ⟨none, ['\n'], cs⟩
  | ['\\'] => ⟨none, ['\\'], []⟩
  | '\\' :: c :: cs => (scanString cs).cons (unescape c) ['\\', c]
  | c :: cs => (scanString cs).cons [c] [c]

/-- `scanString` loses no character. -/
theorem scanString_append (cs : List Char) : (scanString cs).text ++ (scanString cs).rest = cs := by
  fun_induction scanString cs <;> simp_all [StringScan.cons]

/-! ### Lexemes -/

/-- The token of a character that is one by itself. -/
def punctuation? : Char → Option Token
  | '\n' | ';' => some .stop
  | '(' => some .lparen
  | ')' => some .rparen
  | '+' => some (.op .plus)
  | '-' => some (.op .minus)
  | '*' => some (.op .star)
  | '/' => some (.op .slash)
  | '>' => some (.op .greater)
  | '<' => some (.op .less)
  | '%' => some (.op .percent)
  | '^' => some (.op .caret)
  | _ => none

/-- Whether a text begins with a number: a digit, or a point and a digit. -/
def startsNumber (c : Char) (cs : List Char) : Bool :=
  c.isDigit || c = '.' && (cs.head?.map Char.isDigit).getD false

/-- Read one lexeme from a text that begins with `c`. -/
def scanToken (c : Char) (cs : List Char) : Scan :=
  match punctuation? c with
  | some token => ⟨.ok token, [c], cs⟩
  | none =>
    if c = '=' then
      match cs with
      | '=' :: rest => ⟨.ok (.op .equal), ['=', '='], rest⟩
      | rest => ⟨.ok .assign, ['='], rest⟩
    else if c = '"' then
      let s := scanString cs
      match s.value with
      | some value => ⟨.ok (.str (String.ofList value)), '"' :: s.text, s.rest⟩
      | none => ⟨.error .unterminatedString, '"' :: s.text, s.rest⟩
    else if startsNumber c cs then scanNumber (c :: cs)
    else if isWordStart c then
      let word := c :: cs.takeWhile isWordChar
      ⟨.ok (wordToken word), word, cs.dropWhile isWordChar⟩
    else ⟨.error (.unexpectedChar c), [c], cs⟩

/-- A lexeme and what follows it are the whole text. -/
theorem scanToken_append (c : Char) (cs : List Char) :
    (scanToken c cs).text ++ (scanToken c cs).rest = c :: cs := by
  have hs := scanString_append cs
  unfold scanToken
  split
  · rfl
  · split
    · subst_vars
      split <;> simp
    · split
      · subst_vars
        dsimp only
        split <;> simp [hs]
      · split
        · exact scanNumber_append _
        · split
          · simp
          · rfl

/-- A lexeme is never empty. -/
theorem scanToken_text_ne_nil (c : Char) (cs : List Char) : (scanToken c cs).text ≠ [] := by
  unfold scanToken
  split
  · simp
  · split
    · split <;> simp
    · split
      · dsimp only
        split <;> simp
      · split
        · next h =>
          have hc : isNumberChar c = true := by
            unfold startsNumber at h
            unfold isNumberChar
            grind
          unfold scanNumber
          dsimp only
          split <;> simp [hc]
        · split <;> simp

/-- What follows a lexeme is shorter than the text it was read from. -/
theorem scanToken_rest_lt (c : Char) (cs : List Char) :
    (scanToken c cs).rest.length < (c :: cs).length := by
  have h := congrArg List.length (scanToken_append c cs)
  have hne := List.length_pos_iff.mpr (scanToken_text_ne_nil c cs)
  rw [List.length_append] at h
  omega

/-- The lexemes of a text that starts at the given byte offset. -/
def lexemesFrom (offset : Nat) (cs : List Char) : List Lexeme :=
  match _h : splitTrivia false cs with
  | (_, []) => []
  | (skipped, c :: rest) =>
    let start := offset + byteLength skipped
    let s := scanToken c rest
    ⟨s.outcome, s.text, start⟩ :: lexemesFrom (start + byteLength s.text) s.rest
termination_by cs.length
decreasing_by
  -- Every token takes a character at least.
  have hlt := scanToken_rest_lt c rest
  have happ := congrArg List.length (splitTrivia_append false cs)
  rw [_h, List.length_append] at happ
  simp only at happ
  omega

/-- The lexemes of a source. -/
def lexemes (source : String) : List Lexeme := lexemesFrom 0 source.toList

end Straightline
