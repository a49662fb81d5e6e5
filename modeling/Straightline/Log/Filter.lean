import Straightline.Decimal.Numeral
import Straightline.Log.Event
import Straightline.Text.Bytes
import Straightline.Text.Pattern
import Straightline.Text.Split

/-!
# Log filters

A filter is a list of directives. A directive lets events of a level and those that matter more
through, if their target starts with that of the directive and they have the detail that it asks
for. Of several directives the one with the longest target counts, and then one that asks for a
detail.

* `LogFilter.admits` says whether an event comes through.
* `LogFilter.parse` reads a filter as it is written: directives with commas in between. A directive
  is `LEVEL`, `TARGET` or `TARGET=LEVEL`, or has brackets behind the target. In the brackets there
  is the name of a stretch of work, or in braces a detail, perhaps with its value.
-/

namespace Straightline

/-- One piece of a filter. -/
structure Directive where
  /-- What the target of an event has to start with. -/
  target : String := ""
  /-- The detail that an event has to have. -/
  detail : Option String := none
  /-- Whether it is about stretches of work: it names one, or asks for the value of a detail. -/
  aboutWork : Bool := false
  /-- The highest rank that it lets through, and 0 if it lets nothing through. -/
  rank : Nat := 5
  deriving DecidableEq

namespace Directive

/-- Whether a directive has a say in an event. No event is a stretch of work. -/
def concerns (d : Directive) (e : Event) : Bool :=
  !d.aboutWork && d.target.toList.isPrefixOf e.target.toList && d.detail.all e.hasDetail

/-- Whether the second of two directives for an event counts, which is behind the first. Their
    targets are the same if they are of one length. -/
def yieldsTo (a b : Directive) : Bool :=
  if a.target.utf8ByteSize = b.target.utf8ByteSize then
    match a.detail, b.detail with
    -- Of two that are as specific, the later one counts.
    | none, _ => true
    | some _, none => false
    | some x, some y => x ≤ y
  else a.target.utf8ByteSize < b.target.utf8ByteSize

end Directive

/-- Which events are shown. -/
structure LogFilter where
  directives : List Directive
  deriving DecidableEq

/-- Why a filter cannot be read. -/
inductive FilterError where
  | malformed
  /-- A text that is to be taken from a directive starts or ends inside a character. -/
  | insideCharacter
  deriving DecidableEq

namespace LogFilter

/-! ### Deciding -/

/-- The directive that counts for an event. -/
def directiveFor? (f : LogFilter) (e : Event) : Option Directive :=
  (f.directives.filter (·.concerns e)).foldl (fun best d =>
    match best with
    | some b => if b.yieldsTo d then some d else some b
    | none => some d) none

/-- Whether an event is shown. -/
def admits (f : LogFilter) (e : Event) : Bool :=
  match f.directiveFor? e with
  | some d => e.level.rank ≤ d.rank
  | none => false

/-- The filter that shows events of a rank and those that matter more. -/
def ofRank (rank : Nat) : LogFilter := ⟨[{ rank }]⟩

/-- The filter for a number of requests for more: warnings at least, then more and more. -/
def ofVerbosity (verbosity : Nat) : LogFilter := ofRank (min (verbosity + 2) 5)

/-! ### Levels and values -/

/-- A number with an optional plus sign. -/
def number? (cs : List Char) : Option Nat :=
  let ds := if cs.head? = some '+' then cs.tail else cs
  if ds.isEmpty || !ds.all Char.isDigit then none else some (Decimal.ofDigits ds)

/-- The rank of a level by its name, in any case, or by its number. -/
def rank? (cs : List Char) : Option Nat :=
  match number? cs with
  | some n => if n ≤ 5 then some n else none
  | none =>
    match (String.ofList (cs.map Char.toLower)) with
    | "off" => some 0
    | "error" => some 1
    | "warn" => some 2
    | "info" => some 3
    | "debug" => some 4
    | "trace" => some 5
    | _ => none

/-- Whether a value can be asked for: it is a pattern, or a number with a plus sign. -/
def isValue (cs : List Char) : Bool :=
  Pattern.isWellFormed cs ||
    match cs with
    | '+' :: number =>
      (Numeral.readUnsigned? false number).isSome
        || ["inf", "infinity", "nan"].contains (String.ofList (number.map Char.toLower))
    | _ => false

/-! ### Directives

Blanks around a directive are passed over when its marks are looked for. Texts between the marks are
then taken from the directive as it is written, blanks included, at the positions that the marks
have without the blanks. So blanks in front move every such text, and only a directive without them
says what it seems to say. -/

/-- What stands between two positions of a directive as it is written. -/
def taken (written : List Char) (start stop : Nat) : Except FilterError (List Char) :=
  match Text.slice? start stop written with
  | some cs => .ok cs
  | none => .error .insideCharacter

/-- The position of the first mark of a kind, and the text from there on. -/
def seek (mark : Char → Bool) (position : Nat) (text : List Char) : Nat × List Char :=
  (position + byteLength (text.takeWhile (!mark ·)), text.dropWhile (!mark ·))

/-- Whether a directive may start with a character. -/
def startsDirective (c : Char) : Bool :=
  Text.isAlphabetic c || Text.isNumeric c || c = '-' || c = ':' || c = '_'

/-- A directive with the level at the end of what is written. With nothing there everything is
    meant. -/
def withRank (written : List Char) (d : Directive) (position : Nat) :
    Except FilterError Directive := do
  match ← taken written position (byteLength written) with
  | [] => .ok d
  | level =>
    match rank? level with
    | some rank => .ok { d with rank }
    | none => .error .malformed

/-- Read what follows the brackets. -/
def behindBrackets (written : List Char) (d : Directive) (position : Nat) :
    List Char → Except FilterError Directive
  | [] => .ok d
  | '=' :: _ => withRank written d (position + 1)
  | _ => .error .malformed

/-- A directive that asks for a detail, or for a detail with a value. -/
def withDetail (d : Directive) (cs : List Char) : Except FilterError Directive :=
  match Text.splitAt '=' cs with
  | [] | [[]] => .error .malformed
  | [name] => .ok { d with detail := some (String.ofList name) }
  | name :: value :: _ =>
    if isValue value then .ok { d with detail := some (String.ofList name), aboutWork := true }
    else .error .malformed

/-- Read what follows an opening brace. -/
def inBraces (written : List Char) (d : Directive) (position : Nat) (text : List Char) :
    Except FilterError Directive := do
  let (stop, back) := seek (· = Text.closeBrace) position text
  if back.isEmpty then .error .malformed
  let d ← withDetail d (← taken written position stop)
  match back with
  | _ :: ']' :: back => behindBrackets written d (stop + 2) back
  | _ => .error .malformed

/-- Read what follows an opening bracket. -/
def inBrackets (written : List Char) (d : Directive) (position : Nat) (text : List Char) :
    Except FilterError Directive := do
  let (stop, back) := seek (fun c => c = ']' || c = Text.openBrace) position text
  match back with
  | [] => .error .malformed
  | mark :: back =>
    -- Unlike the marks, the name is looked up in the text with its blanks.
    let name ← taken written position stop
    if mark = ']' then behindBrackets written { d with aboutWork := true } (stop + 1) back
    else inBraces written { d with aboutWork := !name.isEmpty } (stop + 1) back

/-- Read a directive. -/
def directive (written : List Char) : Except FilterError Directive :=
  match Text.trim written with
  | [] => .error .malformed
  | '[' :: text => inBrackets written {} 1 text
  | c :: text =>
    if !startsDirective c then .error .malformed
    else do
      let (stop, back) := seek (fun c => c = '=' || c = '[') 0 (c :: text)
      match back with
      | [] =>
        -- Neither mark: the whole directive is a level, or else a target.
        match rank? written with
        | some rank => .ok { rank }
        | none => .ok { target := String.ofList written }
      | mark :: back =>
        let target ← taken written 0 stop
        let d : Directive := { target := String.ofList target }
        if mark = '=' then withRank written d (stop + 1) else inBrackets written d (stop + 1) back

/-! ### Filters -/

/-- Read a filter. If it says nothing, errors are shown. -/
def parse (source : String) : Except FilterError LogFilter := do
  let pieces := (Text.splitAt ',' source.toList).filter (!·.isEmpty)
  let directives ← pieces.mapM directive
  return if directives.isEmpty then ofRank 1 else ⟨directives⟩

/-- The filter of a run: the written one, and the one for the verbosity if there is none or if it is
    malformed. -/
def choose (source : Option String) (verbosity : Nat) : Except FilterError LogFilter :=
  match source.map parse with
  | none | some (.error .malformed) => .ok (ofVerbosity verbosity)
  | some (.error e) => .error e
  | some (.ok f) => .ok f

end LogFilter

end Straightline
