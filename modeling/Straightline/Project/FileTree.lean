import Straightline.Project.FileSystem
import Straightline.Text.Split

/-!
# File trees

A tree of files as a value, with the working directory that paths start from. Its directories are
those that its files are in and those on the way to the working directory.

* `FileTree.entry?` says what is at a place and `FileTree.locate` finds the place of a path.
* `FileTree.read`, `FileTree.write` and `FileTree.isFile` make it a file system.
-/

namespace Straightline

/-- A tree of files: their contents by the names that lead to them from the root. The names in
    `workingDirectory` lead to where relative paths start. -/
structure FileTree (workingDirectory : List String := []) where
  files : List (List String × ByteArray) := []

/-- Where a path leads: the names that lead there from the root. -/
abbrev Place := List String

/-- What is at a place. -/
inductive Entry where
  | file (bytes : ByteArray)
  | directory

/-- The place that a component leads to from a directory. What is above the root is the root. -/
def Place.child : Place → String → Place
  | p, "" => p
  | p, "." => p
  | p, ".." => p.dropLast
  | p, name => p ++ [name]

namespace FileTree

variable {workingDirectory : List String}

/-- The contents of a file. -/
def file? (t : FileTree workingDirectory) (p : Place) : Option ByteArray :=
  (t.files.find? (·.1 = p)).map (·.2)

/-- Whether a file is in a directory, however deep. -/
def holdsFile (t : FileTree workingDirectory) (p : Place) : Bool :=
  t.files.any fun f => p.isPrefixOf f.1 && f.1 ≠ p

/-- What is at a place, if anything is. -/
def entry? (t : FileTree workingDirectory) (p : Place) : Option Entry :=
  if p.isPrefixOf workingDirectory then some .directory
  else
    match t.file? p with
    | some bytes => some (.file bytes)
    -- Directories are kept by their files alone.
    | none => if t.holdsFile p then some .directory else none

/-- Follow a component of a path. What it is followed from has to be a directory. -/
def enter (t : FileTree workingDirectory) (p : Place) (component : String) :
    Except FileError Place :=
  match t.entry? p with
  | some .directory =>
    if nameLimit < component.utf8ByteSize then .error .nameTooLong else .ok (p.child component)
  | some (.file _) => .error .notADirectory
  | none => .error .notFound

/-- The components of a path, empty ones included. -/
def components (path : String) : List String :=
  (Text.splitAt '/' path.toList).map String.ofList

/-- Where a path starts: at the root if it starts with a slash. -/
def start (workingDirectory : List String) (path : String) : Place :=
  if path.toList.head? = some '/' then [] else workingDirectory

/-- The place that a path leads to. -/
def locate (t : FileTree workingDirectory) (path : String) : Except FileError Place :=
  match FileError.ofPath? path with
  | some e => .error e
  | none => (components path).foldlM t.enter (start workingDirectory path)

/-- The contents of the file at a path. -/
def read (t : FileTree workingDirectory) (path : String) : Except FileError ByteArray := do
  match t.entry? (← t.locate path) with
  | some (.file bytes) => .ok bytes
  | some .directory => .error .isADirectory
  | none => .error .notFound

/-- Whether there is a file at a path. -/
def isFile (t : FileTree workingDirectory) (path : String) : Bool :=
  match t.read path with
  | .ok _ => true
  | .error _ => false

/-- The tree with other contents of a file. -/
def set (t : FileTree workingDirectory) (p : Place) (bytes : ByteArray) :
    FileTree workingDirectory :=
  if t.files.any (·.1 = p) then ⟨t.files.map fun f => if f.1 = p then (p, bytes) else f⟩
  else ⟨t.files ++ [(p, bytes)]⟩

/-- The place of a name in a directory, if a file can be written there. -/
def free (t : FileTree workingDirectory) (directory : Place) (name : String) :
    Except FileError Place := do
  let place ← t.enter directory name
  match t.entry? place with
  | some .directory => .error .isADirectory
  | _ => .ok place

/-- The place where a file is to be written: a place in a directory, and none itself. A slash at the
    end of a path asks for a directory. -/
def target (t : FileTree workingDirectory) (path : String) : Except FileError Place := do
  if let some e := FileError.ofPath? path then .error e
  match (components path).reverse.dropWhile (·.isEmpty) with
  | [] => .error .isADirectory
  | name :: front =>
    let directory ← front.reverse.foldlM t.enter (start workingDirectory path)
    -- The directory has to be there even if what follows can only fail.
    if path.toList.getLast? = some '/' then
      let _ ← t.enter directory "."
      .error .isADirectory
    else t.free directory name

/-- The tree after a file is written. -/
def write (t : FileTree workingDirectory) (path : String) (bytes : ByteArray) :
    Except FileError (FileTree workingDirectory) :=
  (t.set · bytes) <$> t.target path

end FileTree

instance {workingDirectory : List String} : FileSystem (StateM (FileTree workingDirectory)) where
  read path := do return (← get).read path
  isFile path := do return (← get).isFile path
  write path bytes := do
    match (← get).write path bytes with
    | .ok t =>
      set t
      return .ok ()
    | .error e => return .error e

end Straightline
