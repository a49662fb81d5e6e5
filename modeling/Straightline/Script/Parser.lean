import Straightline.Script.Step

/-!
# Parsing

A script is read from left to right, one token ahead and without going back. The grammar is

```text
program    := (statement? END)* statement?
statement  := print (STRING | expression) | NAME = expression
expression := operands of level 2 joined by > < ==
level 2    := operands of level 1 joined by + -
level 1    := operands of level 0 joined by * / % ^
level 0    := - level 0 | NUMBER | NAME | ( expression )
```

Operators of one level associate to the left, and a minus sign right before a number belongs to it.

* `Parsed` is what reading amounts to: the steps found so far and, unless an error ended it, a
  result.
* `parse` reads a whole stream.
-/

namespace Straightline

/-- The steps found by reading, and the result or the error that ended it. -/
structure Parsed (α : Type) where
  steps : List PlacedStep
  outcome : Except SyntaxError α

namespace Parsed

variable {α β : Type}

/-- Go on reading, unless there was an error. The steps of both parts count. -/
def andThen (p : Parsed α) (next : α → Parsed β) : Parsed β :=
  match p.outcome with
  | .error e => ⟨p.steps, .error e⟩
  | .ok a =>
    let q := next a
    ⟨p.steps ++ q.steps, q.outcome⟩

instance : Monad Parsed where
  pure a := ⟨[], .ok a⟩
  bind := andThen

def fail (e : SyntaxError) : Parsed α := ⟨[], .error e⟩

/-- Find a step. -/
def found (step : Step) (span : Span) : Parsed Unit := ⟨[⟨step, span⟩], .ok ()⟩

theorem bind_eq_andThen (p : Parsed α) (next : α → Parsed β) : p >>= next = p.andThen next := rfl

@[simp] theorem steps_pure (a : α) : (pure a : Parsed α).steps = [] := rfl

@[simp] theorem outcome_pure (a : α) : (pure a : Parsed α).outcome = .ok a := rfl

/-- A reading that fails ends there. -/
theorem andThen_of_error {p : Parsed α} {e : SyntaxError} (next : α → Parsed β)
    (h : p.outcome = .error e) : p.andThen next = ⟨p.steps, .error e⟩ := by
  simp [andThen, h]

/-- A reading that succeeds goes on, and the steps are joined. -/
theorem andThen_of_ok {p : Parsed α} {a : α} (next : α → Parsed β) (h : p.outcome = .ok a) :
    p.andThen next = ⟨p.steps ++ (next a).steps, (next a).outcome⟩ := by
  simp [andThen, h]

end Parsed

namespace TokenStream

/-- Move on to a stream, which is where a stretch of text that is no token is noticed. -/
def enter : TokenStream → Parsed Unit
  | broken e => .fail e
  | _ => pure ()

/-- The error of a stream that starts with something else than it should. -/
def errorHere (expected : Expectation) : TokenStream → SyntaxError
  | token t span _ => .unexpectedToken t span expected
  | ended offset => .unexpectedEnd offset expected
  | broken e => e

/-- The place of what a stream starts with. -/
def spanHere : TokenStream → Span
  | token _ span _ => span
  | ended offset => ⟨offset, 0⟩
  | broken _ => ⟨0, 0⟩

/-- What is left of a stream of which at least one token was read. -/
abbrev Shorter (s : TokenStream) := { rest : TokenStream // rest.size < s.size }

/-- What is left of a stream of which some tokens were read, or none. -/
abbrev Remainder (s : TokenStream) := { rest : TokenStream // rest.size ≤ s.size }

/-- Read a token that has to come next. -/
def expect (t : Token) (expected : Expectation) (s : TokenStream) : Parsed s.Shorter :=
  match s with
  | token t' span rest =>
    if t' = t then do
      rest.enter
      return ⟨rest, by simp⟩
    else .fail (errorHere expected (token t' span rest))
  | s => .fail (s.errorHere expected)

mutual

/-- Read an operand of a level: operands of the level below, joined by its operators. -/
def operand (level : Nat) (s : TokenStream) : Parsed s.Shorter :=
  match level with
  | 0 => s.unary
  | k + 1 => do
    let first ← operand k s
    -- Operators of level `k` stand between operands that are tighter.
    let last ← operators k first.1
    return ⟨last.1, Nat.lt_of_le_of_lt last.2 first.2⟩
termination_by s.size * 8 + level + 1

/-- Read operators of a level, each with its right operand, as long as there are any. -/
def operators (level : Nat) (s : TokenStream) : Parsed s.Remainder :=
  match s with
  | token (.op symbol) span rest =>
    if symbol.level = level then do
      rest.enter
      let next ← operand level rest
      -- Found behind its second operand, so the steps come in postfix order.
      .found (.apply symbol) span
      let last ← operators level next.1
      return ⟨last.1, by have := next.2; have := last.2; simp only [size_token]; omega⟩
    else return ⟨_, Nat.le_refl _⟩
  | _ => return ⟨_, Nat.le_refl _⟩
termination_by s.size * 8 + level + 1
decreasing_by
  · simp only [size_token]; omega
  · have := next.2; simp only [size_token]; omega

/-- Read an operand without operators other than minus signs in front. -/
def unary (s : TokenStream) : Parsed s.Shorter :=
  match s with
  -- The sign belongs to the number here, and the span is the one of the number.
  | token (.op .minus) _ (token (.number value) span rest) => do
    rest.enter
    .found (.push (-value)) span
    return ⟨rest, by simp only [size_token]; omega⟩
  | token (.op .minus) span rest => do
    rest.enter
    let last ← rest.unary
    .found .negate span
    return ⟨last.1, by have := last.2; simp only [size_token]; omega⟩
  | token (.number value) span rest => do
    rest.enter
    .found (.push value) span
    return ⟨rest, by simp⟩
  | token (.ident name) span rest => do
    rest.enter
    .found (.read name) span
    return ⟨rest, by simp⟩
  | token .lparen _ rest => do
    rest.enter
    let inner ← operand 3 rest
    let last ← inner.1.expect .rparen .rparen
    return ⟨last.1, by have := inner.2; have := last.2; simp only [size_token]; omega⟩
  | s => .fail (s.errorHere .expression)
termination_by s.size * 8
decreasing_by
  all_goals simp only [size_token]; omega

end

/-- Read an expression. -/
def expression (s : TokenStream) : Parsed s.Shorter := operand 3 s

/-- Read a statement. -/
def statement (s : TokenStream) : Parsed s.Shorter :=
  match s with
  | token .print _ (token (.str text) span rest) => do
    rest.enter
    .found (.printString text) span
    return ⟨rest, by simp only [size_token]; omega⟩
  | token .print _ rest => do
    rest.enter
    let last ← rest.expression
    -- Blamed on the first token of the value.
    .found .printNumber rest.spanHere
    return ⟨last.1, by have := last.2; simp only [size_token]; omega⟩
  | token (.ident name) span rest => do
    rest.enter
    let value ← rest.expect .assign .assign
    let last ← value.1.expression
    .found (.write name) span
    return ⟨last.1, by have := value.2; have := last.2; simp only [size_token]; omega⟩
  | s => .fail (s.errorHere .statement)

/-- Read statements up to the end. -/
def program (s : TokenStream) : Parsed Unit :=
  match s with
  | ended _ => return ()
  | token .stop _ rest => do
    rest.enter
    rest.program
  | s => do
    let last ← s.statement
    match _h : last.1 with
    | ended _ => return ()
    | token .stop _ rest => do
      rest.enter
      rest.program
    -- Two statements need a `;` or a line end between them.
    | s => .fail (s.errorHere .statementEnd)
termination_by s.size
decreasing_by
  · simp
  · have := last.2
    rw [_h, size_token] at this
    omega

end TokenStream

/-- Read a whole source. -/
def parse (source : String) : Parsed Unit := (TokenStream.ofSource source).program

end Straightline
