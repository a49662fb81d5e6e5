import Straightline.Text.Alphabetic
import Straightline.Text.Blank
import Straightline.Text.Hex
import Straightline.Text.Numeric
import Straightline.Text.Quoted
import Straightline.Text.Reader

/-!
# Patterns

A pattern describes texts by characters, sets of characters in brackets, groups in parentheses,
alternatives and repetitions. This module decides which texts are patterns; it matches none.

* `Modes` say how the parts of a pattern are understood, and `Atom.fits` which parts can be
  understood so.
* `Scan` is what is known of a pattern in the middle of it, and `Scan.step` reads the next part.
* `Pattern.isWellFormed` decides whether a text is a pattern.

No tables of characters are at hand. So over characters neither the difference between capital and
small letters nor the words of a text can be disregarded or found, while over bytes a pattern must
not match half a character. A repetition with a count has braces, and is not read.
-/

namespace Straightline.Pattern

/-! ### Parts -/

/-- How the parts of a pattern are understood. -/
structure Modes where
  /-- Capital and small letters are the same. -/
  anyCase : Bool := false
  /-- A pattern is about characters, and not about bytes. -/
  unicode : Bool := true
  /-- Blanks and comments may stand between the parts. -/
  spaced : Bool := false
  deriving DecidableEq

/-- The modes after some letters are switched on and others off. -/
def Modes.switch (m : Modes) (on off : List Char) : Modes :=
  let state (letter : Char) (before : Bool) :=
    on.contains letter || (before && !off.contains letter)
  { anyCase := state 'i' m.anyCase, unicode := state 'u' m.unicode, spaced := state 'x' m.spaced }

/-- A part that has no parts. -/
inductive Atom where
  /-- A character. It may be given as a byte, by two hexadecimal digits. -/
  | literal (c : Char) (asByte : Bool)
  /-- Any character. -/
  | any
  /-- The start or the end of a line or of the text. -/
  | edge
  /-- The start or the end of a word. -/
  | wordEdge
  /-- The digits, the blanks or the letters of words, or all others. -/
  | shorthand (negated : Bool)
  deriving DecidableEq

namespace Atom

/-- Whether a part can be understood. -/
def fits (m : Modes) : Atom → Bool
  -- A byte that is no character would match half of one.
  | literal c asByte => if m.unicode then !m.anyCase else !asByte || c.toNat < 0x80
  | any => m.unicode
  | edge => true
  | wordEdge => !m.unicode
  | shorthand negated => !m.unicode && !negated

/-- Whether a part can be understood in brackets. -/
def fitsBracket (m : Modes) : Atom → Bool
  | literal c _ => if m.unicode then !m.anyCase else c.toNat < 0x80
  | shorthand negated => !m.unicode && !negated
  | _ => false

end Atom

/-! ### Blanks -/

/-- Drop blanks and comments. A comment goes from a number sign to the end of its line. -/
def dropSpace (comment : Bool) : List Char → List Char
  | [] => []
  | c :: cs =>
    if comment then dropSpace (c ≠ '\n') cs
    else if c = '#' then dropSpace true cs
    else if Text.isBlank c then dropSpace false cs
    else c :: cs

/-- Pass over blanks and comments where they may stand. -/
def space (m : Modes) : Reader Unit :=
  fun cs => some ((), if m.spaced then dropSpace false cs else cs)

/-! ### Escapes -/

/-- A number of so many hexadecimal digits. -/
def hexNumber (m : Modes) : Nat → Nat → Reader Nat
  | 0, value => pure value
  | digits + 1, value => do
    space m
    let c ← Reader.char fun c => (Text.hexValue? c).isSome
    hexNumber m digits (value * 16 + (Text.hexValue? c).getD 0)

/-- A character by its number. -/
def numbered (m : Modes) (digits : Nat) : Reader Atom := do
  let n ← hexNumber m digits 0
  if n.isValidChar then return .literal (Char.ofNat n) (digits = 2) else failure

/-- What follows a backslash. -/
def escape (m : Modes) : Reader Atom := do
  match ← Reader.char fun _ => true with
  | 'x' => numbered m 2
  | 'u' => numbered m 4
  | 'U' => numbered m 8
  | 'd' | 's' | 'w' => return .shorthand false
  | 'D' | 'S' | 'W' => return .shorthand true
  | 'b' | 'B' | '<' | '>' => return .wordEdge
  | 'A' | 'z' => return .edge
  | 'a' => return .literal '\x07' false
  | 'f' => return .literal '\x0c' false
  | 't' => return .literal '\t' false
  | 'n' => return .literal '\n' false
  | 'r' => return .literal '\r' false
  | 'v' => return .literal '\x0b' false
  -- Letters and digits are kept for meanings of their own, so only marks stand for themselves.
  | c => if c.toNat < 0x80 && !c.isAlphanum then return .literal c false else failure

/-! ### Brackets -/

/-- The names that sets of characters have in brackets. -/
def setNames : List String :=
  ["alnum", "alpha", "ascii", "blank", "cntrl", "digit", "graph", "lower", "print",
    "punct", "space",
   "upper", "word", "xdigit"]

/-- A set by its name, and whether its complement is meant. -/
def namedSet : Reader Bool := do
  Reader.word "[:"
  let negated ← Reader.possibly (Reader.exactly '^')
  let name ← Reader.run (· ≠ ':')
  Reader.word ":]"
  if setNames.contains (String.ofList name) then return negated.isSome else failure

/-- A bracket, and what has a meaning of its own right behind it. -/
def openBracket (m : Modes) : Reader Unit := do
  Reader.exactly '['
  if m.unicode && m.anyCase then failure
  space m
  let negated ← Reader.possibly (Reader.exactly '^')
  if negated.isSome && !m.unicode then failure
  space m
  let dashes ← Reader.many do
    Reader.exactly '-'
    space m
  -- A `]` in first place is a member, unless a dash was the first one.
  if dashes.isEmpty then
    let _ ← Reader.possibly (Reader.exactly ']')

/-- A member of a set. -/
def member (m : Modes) : Reader Atom := do
  let c ← Reader.char fun _ => true
  let a ← if c = '\\' then escape m else pure (.literal c false)
  if a.fitsBracket m then return a else failure

/-- Whether a dash with this behind it joins two characters to a range. -/
def joins (m : Modes) (rest : List Char) : Bool :=
  let next := (if m.spaced then dropSpace false rest else rest).head?
  next ≠ some ']' && next ≠ some '-'

/-- A member of a set, or a range. -/
def range (m : Modes) : Reader Unit := do
  let low ← member m
  space m
  match ← get with
  | '-' :: rest =>
    if joins m rest then
      set rest
      space m
      match low, ← member m with
      | .literal low _, .literal high _ => if low ≤ high then return () else failure
      -- A shorthand cannot be the end of a range.
      | _, _ => failure
  | _ => return ()

/-! ### Groups -/

/-- The name of a group, and the mark at its end. -/
def groupName : Reader (List Char) := do
  let first ← Reader.char fun c => c = '_' || Text.isAlphabetic c
  let others ← Reader.run fun c =>
    c = '_' || c = '.' || c = '[' || c = ']' || Text.isAlphabetic c || Text.isNumeric c
  Reader.exactly '>'
  return first :: others

/-- Whether a letter stands for a mode. -/
def isModeLetter (c : Char) : Bool := ['i', 'm', 's', 'R', 'U', 'u', 'x'].contains c

/-- Letters of modes that are switched on and, behind a minus sign, of modes that are switched
    off. -/
def switches : Reader (List Char × List Char) := do
  let on ← Reader.run isModeLetter
  let off ← Reader.possibly do
    Reader.exactly '-'
    let letters ← Reader.run isModeLetter
    if letters.isEmpty then failure else return letters
  let off := off.getD []
  if (on ++ off).Nodup then return (on, off) else failure

/-! ### Patterns -/

/-- What is known in the middle of a pattern. -/
structure Scan where
  modes : Modes := {}
  /-- The modes to go back to at the end of each open group. -/
  groups : List Modes := []
  /-- The names of groups so far. -/
  names : List (List Char) := []
  /-- How many brackets are open. -/
  brackets : Nat := 0
  /-- Whether there is something that can be repeated. -/
  repeatable : Bool := false
  deriving DecidableEq

namespace Scan

/-- Read what follows the parenthesis of a group. Letters alone are no group, and change the modes
    up to the end of the group around them. -/
def openGroup (s : Scan) : Reader Scan := do
  space s.modes
  let inner := { s with groups := s.modes :: s.groups, repeatable := false }
  if (← Reader.possibly (Reader.word "?P<" <|> Reader.word "?<")).isSome then
    let name ← groupName
    if s.names.contains name then failure else return { inner with names := name :: s.names }
  else if (← Reader.possibly (Reader.exactly '?')).isSome then
    let (on, off) ← switches
    let modes := s.modes.switch on off
    match ← Reader.char fun c => c = ')' || c = ':' with
    | ')' =>
      -- Switches without a group hold up to the end of the group around them.
      if on.isEmpty && off.isEmpty then failure else return { s with modes, repeatable := false }
    | _ => return { inner with modes }
  else return inner

/-- Leave a group. -/
def closeGroup? (s : Scan) : Option Scan :=
  match s.groups with
  | [] => none
  | modes :: groups => some { s with modes, groups, repeatable := true }

/-- Add a part. -/
def add? (s : Scan) (a : Atom) : Option Scan :=
  if a.fits s.modes then some { s with repeatable := true } else none

/-- Read a part outside brackets. -/
def part (s : Scan) : Reader Scan
  | [] => some (s, [])
  | '(' :: cs => s.openGroup cs
  | ')' :: cs => s.closeGroup?.map (·, cs)
  | '|' :: cs => some ({ s with repeatable := false }, cs)
  | '[' :: cs => (openBracket s.modes ('[' :: cs)).map fun (_, cs) => ({ s with brackets := 1 }, cs)
  | '\\' :: cs => (escape s.modes cs).bind fun (a, cs) => (s.add? a).map (·, cs)
  | c :: cs =>
    if c = '*' || c = '+' || c = '?' then if s.repeatable then some (s, cs) else none
    -- Counted repetition is not part of these patterns.
    else if c = Text.openBrace then none
    else
      let a := if c = '.' then Atom.any else if c = '^' || c = '$' then .edge else .literal c false
      (s.add? a).map (·, cs)

/-- Read a part in brackets: a set within the set, the end of it, two signs that join sets, or
    members. -/
def bracketPart (s : Scan) : Reader Scan
  | [] => some (s, [])
  | ']' :: cs => some ({ s with brackets := s.brackets - 1, repeatable := true }, cs)
  | '&' :: '&' :: cs => some (s, cs)
  | '-' :: '-' :: cs => some (s, cs)
  | '~' :: '~' :: cs => some (s, cs)
  | '[' :: cs =>
    -- `[:name:]` is tried first, and a bracket inside the bracket otherwise.
    match namedSet ('[' :: cs) with
    | some (negated, cs) => if negated && !s.modes.unicode then none else some (s, cs)
    | none =>
      (openBracket s.modes ('[' :: cs)).map fun (_, cs) =>
        ({ s with brackets := s.brackets + 1 }, cs)
  | cs => (range s.modes cs).map fun (_, cs) => (s, cs)

/-- Read a part. -/
def step (s : Scan) : Reader Scan := do
  space s.modes
  if s.brackets = 0 then s.part else s.bracketPart

end Scan

/-- Whether a text is a pattern. -/
def isWellFormed (cs : List Char) : Bool :=
  match Reader.toEnd Scan.step {} cs with
  | some s => s.groups.isEmpty && s.brackets = 0
  | none => false

end Straightline.Pattern
