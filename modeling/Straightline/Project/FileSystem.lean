/-!
# Files

* `FileSystem` is what the program does with files; a monad that offers it can hold a tree of files
  or be the outside world.
* `FileError` says why a file cannot be read or written, and `FileError.ofPath?` finds what can be
  wrong with the path alone.
-/

namespace Straightline

/-- Why a file cannot be read or written. -/
inductive FileError where
  | notFound
  | notADirectory
  | isADirectory
  | nameTooLong
  /-- The path has a character in it that no path can have. -/
  | nulInPath
  /-- The contents are no text. -/
  | notUtf8
  /-- Anything else, in the words of the outside world. -/
  | other (description : String)
  deriving DecidableEq

/-- The wording of an error. -/
def FileError.message : FileError → String
  | notFound => "No such file or directory (os error 2)"
  | notADirectory => "Not a directory (os error 20)"
  | isADirectory => "Is a directory (os error 21)"
  | nameTooLong => "File name too long (os error 36)"
  | nulInPath => "file name contained an unexpected NUL byte"
  | notUtf8 => "stream did not contain valid UTF-8"
  | other description => description

/-- The bytes that the name of a file or of a directory may have. -/
def nameLimit : Nat := 255

/-- The bytes that a path may have. -/
def pathLimit : Nat := 4095

/-- What is wrong with a path, wherever it leads. -/
def FileError.ofPath? (path : String) : Option FileError :=
  if path.toList.contains '\x00' then some nulInPath
  else if path = "" then some notFound
  else if pathLimit < path.utf8ByteSize then some nameTooLong
  else none

/-- Files by their paths. -/
class FileSystem (m : Type → Type) where
  read : String → m (Except FileError ByteArray)
  /-- Replace the contents of a file, or create it. -/
  write : String → ByteArray → m (Except FileError Unit)
  /-- Whether there is a file, and not a directory, at a path. -/
  isFile : String → m Bool

end Straightline
