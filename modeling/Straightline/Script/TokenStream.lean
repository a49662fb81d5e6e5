import Straightline.Script.Lexer

/-!
# Token streams

What a parser reads: tokens up to the end of the source, or up to the first stretch of text that is
no token. Nothing behind that can be read.

* `SyntaxError` says why a source is no script.
* `TokenStream.ofSource` is the stream of a source.
-/

namespace Straightline

/-- What may stand at a place of a script. -/
inductive Expectation where
  | statementEnd
  | statement
  | assign
  | expression
  | rparen
  deriving DecidableEq

/-- An expectation as messages name it. -/
def Expectation.text : Expectation → String
  | statementEnd => "end of statement"
  | statement => "`print` or an assignment"
  | assign => "`=`"
  | expression => "an expression"
  | rparen => "`)`"

/-- Why a source is no script. -/
inductive SyntaxError where
  /-- A stretch of text that is no token. -/
  | badLexeme (fault : Fault) (text : List Char) (span : Span)
  | unexpectedToken (token : Token) (span : Span) (expected : Expectation)
  | unexpectedEnd (offset : Nat) (expected : Expectation)
  deriving DecidableEq

/-- Tokens with their places, up to the end or a stretch of text that is none. -/
inductive TokenStream where
  | token (token : Token) (span : Span) (rest : TokenStream)
  | broken (error : SyntaxError)
  /-- The end of a source of that many bytes. -/
  | ended (offset : Nat)
  deriving DecidableEq

namespace TokenStream

/-- The number of tokens. -/
def size : TokenStream → Nat
  | token _ _ rest => rest.size + 1
  | _ => 0

@[simp] theorem size_token (t : Token) (span : Span) (rest : TokenStream) :
    (token t span rest).size = rest.size + 1 := rfl

/-- The stream of the lexemes of a source of `length` bytes. -/
def ofLexemes (length : Nat) : List Lexeme → TokenStream
  | [] => ended length
  | l :: ls =>
    match l.outcome with
    | .ok t => token t l.span (ofLexemes length ls)
    | .error fault => broken (.badLexeme fault l.text l.span)

/-- The stream of a source. -/
def ofSource (source : String) : TokenStream :=
  ofLexemes source.utf8ByteSize (lexemes source)

end TokenStream

end Straightline
