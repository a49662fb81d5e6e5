import Straightline.Script.Parser

/-!
# Compiling scripts

* `compileInto` adds a script to a compilation.
* `compilation` is a whole compilation of a script, and `compile` its module.
* `ScriptError.diagnostic` is an error as it is shown.
-/

namespace Straightline

/-- Add a script to a compilation. Steps are made as far as the script can be read; if one fails,
    that comes before what is wrong behind it. -/
def compileInto (source : String) : Compile Unit := do
  let parsed := parse source
  -- The steps found before a syntax error run first, so an error of theirs is the one reported.
  let _ ← Step.emitAll parsed.steps []
  match parsed.outcome with
  | .ok () => return ()
  | .error e => throw (.malformed e)

/-- The compilation of a whole script, and whether it was finished. -/
def compilation (source : String) (options : Options) : Except ScriptError Unit × Compilation :=
  let steps : Compile Unit := do
    compileInto source
    Emit.blaming ⟨0, source.utf8ByteSize⟩ Emit.finish
  steps { options }

/-- The module of a script. -/
def compile (source : String) (options : Options) : Except ScriptError Module :=
  match compilation source options with
  | (.ok (), c) => .ok c.module
  | (.error e, _) => .error e

/-! ### Diagnostics -/

/-- An error as it is shown: a message, and a label on the stretch of source that is to blame. -/
structure Diagnostic where
  code : String
  message : String
  help : Option String
  label : String
  span : Span
  deriving DecidableEq

/-- What is shown of a fault in a stretch of text. -/
def Fault.diagnostic (text : List Char) (span : Span) : Fault → Diagnostic
  | unexpectedChar c => {
      code := "parser::unexpected_char"
      message := "unexpected character `" ++ String.singleton c ++ "`"
      help := none
      label := "not valid here"
      span }
  | unterminatedString => {
      code := "parser::unterminated_string"
      message := "unterminated string literal"
      help := some "add a closing `\"`"
      label := "string starts here"
      span }
  | invalidNumber => {
      code := "parser::invalid_number"
      message := "invalid number `" ++ String.ofList text ++ "`"
      help := none
      label := "invalid number"
      span }

/-- What is shown of an error. -/
def SyntaxError.diagnostic : SyntaxError → Diagnostic
  | badLexeme fault text span => fault.diagnostic text span
  | unexpectedToken token span expected => {
      code := "parser::unexpected_token"
      message := "unexpected token `" ++ token.describe ++ "`"
      help := some ("expected " ++ expected.text)
      label := "unexpected token"
      span }
  | unexpectedEnd offset expected => {
      code := "parser::unexpected_eof"
      message := "unexpected end of input"
      help := some ("expected " ++ expected.text)
      label := "input ends here"
      span := ⟨offset, 0⟩ }

/-- What is shown of an error. -/
def ScriptError.diagnostic : ScriptError → Diagnostic
  | malformed error => error.diagnostic
  | emission cause span => {
      code := "codegen::emit"
      message := cause.message
      help := none
      label := "here"
      span }

end Straightline
