/-!
# Paths

A path is a text whose components are separated by slashes. Repeated slashes count as one, and a
component `.` counts only at the very start.

* `parent?` is the path without its last component, and `join` puts a component behind a path.
* `withExtension` replaces what stands behind the last dot of the last component.
-/

namespace Straightline.Path

/-- Drop what does not count at the end of a path. The text is given backwards. -/
def trimBack : List Char → List Char
  | '/' :: cs => trimBack cs
  | '.' :: '/' :: cs => trimBack cs
  | cs => cs

/-- The last component, and the text in front of it. -/
def splitLast? (path : String) : Option (List Char × List Char) :=
  match trimBack path.toList.reverse with
  | [] => none
  | cs => some ((cs.dropWhile (· ≠ '/')).reverse, (cs.takeWhile (· ≠ '/')).reverse)

/-- The path without its last component. A path without components, such as the root, has none. -/
def parent? (path : String) : Option String :=
  (splitLast? path).map fun (front, _) =>
    match trimBack front.reverse with
    | [] => if front.isEmpty then "" else "/"
    | cs => String.ofList cs.reverse

/-- A name without the dot and the extension at its end. A dot at the start is part of the name. -/
def stem (name : List Char) : List Char :=
  let front := ((name.reverse.dropWhile (· ≠ '.')).drop 1).reverse
  if front.isEmpty then name else front

/-- The path with another extension, or with one if it had none. A path that does not end in a name
    stays as it is. A name such as `..x` at the very end loses its extension and is then `..`, which
    is no name that could get another. -/
def withExtension (extension path : String) : String :=
  match splitLast? path with
  | none => path
  | some (front, name) =>
    if name = ['.'] ∨ name = ['.', '.'] then path
    else if stem name = ['.'] ∧ path.toList = front ++ name then String.ofList (front ++ ['.', '.'])
    else String.ofList (front ++ stem name ++ '.' :: extension.toList)

/-- A name behind a path. -/
def join (path name : String) : String :=
  if path = "" then name
  else if path.toList.getLast? = some '/' then path ++ name
  else path ++ "/" ++ name

end Straightline.Path
