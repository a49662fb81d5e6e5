/-!
# Readers

A reader takes something from the start of a text, or refuses and takes nothing.

* `Reader.many` repeats a reader as long as it takes something, and `Reader.separated` does so with
  separators in between.
* `Reader.toEnd` repeats a step that changes a state until the text is used up.
-/

namespace Straightline

/-- Takes a value from the start of a text, if it can. -/
abbrev Reader := StateT (List Char) Option

namespace Reader

variable {α β : Type}

/-- The next character, if it is of a class. -/
def char (p : Char → Bool) : Reader Char
  | c :: cs => if p c then some (c, cs) else none
  | [] => none

/-- One particular character. -/
def exactly (c : Char) : Reader Unit := do
  let _ ← char (· = c)

/-- A word. -/
def word (w : String) : Reader Unit := w.toList.forM exactly

/-- All characters of a class up to the first that is not. -/
def run (p : Char → Bool) : Reader (List Char) := fun cs =>
  some (cs.takeWhile p, cs.dropWhile p)

/-- Any number of things, as many as can be taken. -/
def manyFrom (r : Reader α) (cs : List Char) : List α × List Char :=
  match r cs with
  | none => ([], cs)
  | some (a, rest) =>
    -- A reader that takes nothing would go on without an end.
    if rest.length < cs.length then
      let (as, rest) := manyFrom r rest
      (a :: as, rest)
    else ([], cs)
termination_by cs.length

/-- Any number of things, as many as can be taken. -/
def many (r : Reader α) : Reader (List α) := fun cs => some (manyFrom r cs)

/-- One or more things with separators in between. -/
def separated (r : Reader α) (separator : Reader β) : Reader (List α) := do
  let first ← r
  let others ← many do
    let _ ← separator
    r
  return first :: others

/-- Something, or nothing. -/
def possibly (r : Reader α) : Reader (Option α) := (some <$> r) <|> pure none

/-- Repeat a step up to the end of a text. Each step has to take something. -/
def toEnd (step : α → Reader α) (a : α) : List Char → Option α
  | [] => some a
  | c :: cs =>
    match step a (c :: cs) with
    | none => none
    | some (a, rest) => if rest.length < cs.length + 1 then toEnd step a rest else none
termination_by cs => cs.length

/-- Nothing is left. -/
def ending : Reader Unit
  | [] => some ((), [])
  | _ => none

end Reader

end Straightline
