import Straightline.Double.Shortest
import Straightline.Text.Bytes

/-!
# Tokens

A script is a sequence of statements, each of them tokens up to a statement end.

* `Symbol` are the operator symbols and `Token` all tokens.
* `Token.describe` is how a message names a token.
* `Span` is a place in the source, in bytes.
-/

namespace Straightline

/-- An operator symbol. -/
inductive Symbol where
  | plus | minus | star | slash | greater | less | equal | percent | caret
  deriving DecidableEq

namespace Symbol

/-- The symbol as it is written. -/
def text : Symbol → String
  | plus => "+"
  | minus => "-"
  | star => "*"
  | slash => "/"
  | greater => ">"
  | less => "<"
  | equal => "=="
  | percent => "%"
  | caret => "^"

/-- The level of an operator; the lower it is, the tighter the operator binds. -/
def level : Symbol → Nat
  | star | slash | percent | caret => 0
  | plus | minus => 1
  | greater | less | equal => 2

end Symbol

/-- A token of a script. -/
inductive Token where
  | ident (name : String)
  | print
  | number (value : Double)
  /-- A string literal, with its escapes resolved. -/
  | str (text : String)
  | assign
  | op (symbol : Symbol)
  | lparen
  | rparen
  /-- The end of a statement: a newline or a semicolon. -/
  | stop
  deriving DecidableEq

/-- How a message names a token. -/
def Token.describe : Token → String
  | ident name => name
  | print => "print"
  | number value => value.toShortest
  | str text => "\"" ++ text ++ "\""
  | assign => "="
  | op symbol => symbol.text
  | lparen => "("
  | rparen => ")"
  | stop => "end of statement"

/-- How a message names the end of the source. -/
def endOfFile : String := "end of file"

/-- A stretch of the source, in bytes of its UTF-8 encoding. -/
structure Span where
  start : Nat
  length : Nat
  deriving DecidableEq

end Straightline
