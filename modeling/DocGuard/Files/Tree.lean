import DocGuard.Error
import DocGuard.Text.Basic

/-! File trees: directories and files under one root, seen from a working directory. Paths are
resolved one component after the other, so that the first component that fails decides the error. -/
namespace DocGuard

/-- What stands at a place of a file tree. -/
inductive FileEntry where
  | file (bytes : List UInt8)
  | directory
  deriving DecidableEq, Repr

/-- The entries by their components from the root, and the directory where relative paths start. -/
structure FileTree where
  entries : List (List String × FileEntry) :=
    [(["tmp"], .directory), (["tmp", "documents"], .directory)]
  workingDirectory : List String := ["tmp", "documents"]
  deriving DecidableEq, Repr

namespace FileTree

/-- The number of bytes of the longest component. -/
def maxName : Nat := 255

/-- The number of bytes from which on a path is too long. -/
def maxPath : Nat := 4096

/-- The entry at a place; the root is always a directory. -/
def entry? (t : FileTree) (place : List String) : Option FileEntry :=
  if place.isEmpty then some .directory else t.entries.lookup place

/-- The components of a path: what stands between its slashes. -/
def components (path : String) : List String :=
  (path.toList.splitOn '/').map String.ofList

/-- Follows components from a place. Each needs a directory to stand in; an empty one and a point
stay there, two points lead to the directory above. -/
def walk (t : FileTree) (place : List String) : List String → Except FileError (List String)
  | [] => .ok place
  | name :: rest =>
    match t.entry? place with
    | none => .error .notFound
    | some (.file _) => .error .notDirectory
    | some .directory =>
      if name = "" ∨ name = "." then t.walk place rest
      else if name = ".." then t.walk place.dropLast rest
      else if maxName < Text.utf8Size name.toList then .error .nameTooLong
      else if (t.entry? (place ++ [name])).isNone then .error .notFound
      else t.walk (place ++ [name]) rest

/-- Where a path starts: at the root after a leading slash, else at the working directory. -/
def start (t : FileTree) (path : String) : List String :=
  if path.toList.head? = some '/' then [] else t.workingDirectory

/-- The checks on the text of a path that come before any look at the tree. -/
def checkText (path : String) : Except FileError Unit :=
  if '\x00' ∈ path.toList then .error .nulInPath
  else if path.isEmpty then .error .notFound
  else if maxPath ≤ Text.utf8Size path.toList then .error .nameTooLong
  else .ok ()

def resolve (t : FileTree) (path : String) : Except FileError (List String) := do
  checkText path
  t.walk (t.start path) (components path)

def pathExists (t : FileTree) (path : String) : Bool :=
  (t.resolve path).toOption.isSome

def read (t : FileTree) (path : String) : Except FileError (List UInt8) := do
  match t.entry? (← t.resolve path) with
  | some (.file bytes) => .ok bytes
  | some .directory => .error .isDirectory
  | none => .error .notFound

/-- The tree with an entry at a place, in the stead of one that stood there. -/
def set (t : FileTree) (place : List String) (entry : FileEntry) : FileTree :=
  { t with entries := (place, entry) :: t.entries.filter (·.1 ≠ place) }

/-- The names in a path that lead on: its components but the empty ones and the points. -/
def names (path : String) : List String :=
  (components path).filter fun name => name ≠ "" ∧ name ≠ "."

/-- Follows components from a place as `walk` does, but makes the directories that are missing. What
was made before a component that fails stays. -/
def makeWay (t : FileTree) (place : List String) :
    List String → Except FileError (List String) × FileTree
  | [] => (.ok place, t)
  | name :: rest =>
    match t.walk place [name] with
    | .ok next => t.makeWay next rest
    | .error .notFound => (t.set (place ++ [name]) .directory).makeWay (place ++ [name]) rest
    | .error cause => (.error cause, t)

/-- The place that components would name if only the last of them is missing. -/
def freePlace? (t : FileTree) (place names : List String) : Option (List String) := do
  let parent ← (t.walk place names.dropLast).toOption
  let name ← names.getLast?
  match t.walk parent [name] with
  | .error .notFound => some (parent ++ [name])
  | _ => none

/-- Makes a directory at a path whose parent is there. One that stands there already will do.
Slashes at the end count for nothing. -/
def addDirectory (t : FileTree) (path : String) : Except FileError Unit × FileTree :=
  match t.resolve path with
  | .ok place => (if t.entry? place = some .directory then .ok () else .error .notDirectory, t)
  | .error cause =>
    let last := ((components path).reverse.dropWhile (· = "")).reverse
    match t.freePlace? (t.start path) last with
    | some place => (.ok (), t.set place .directory)
    | none => (.error cause, t)

/-- Makes a directory at a path and the parents that are missing. -/
def makeDirectory (t : FileTree) (path : String) : Except FileError Unit × FileTree :=
  match checkText path with
  | .error cause => (.error cause, t)
  | .ok () =>
    match t.makeWay (t.start path) (names path).dropLast with
    | (.ok _, made) => made.addDirectory path
    | (.error cause, made) => (.error cause, made)

/-- The path to the parent of what a path names, empty where there is none. Empty components and
points at its end are left out. -/
def parentPath (path : String) : String :=
  let trimmed := (components path).reverse.dropWhile fun name => name = "" || name = "."
  let above := trimmed.tail.dropWhile fun name => name = "" || name = "."
  "/".intercalate above.reverse

/-- Writes a file at a path and makes the parents that are missing, as far as they can be made. A
path with a slash at its end names no file. -/
def write (t : FileTree) (path : String) (bytes : List UInt8) : Except FileError Unit × FileTree :=
  let made := (t.makeDirectory (parentPath path)).2
  match made.resolve path with
  | .ok place =>
    match made.entry? place with
    | some (.file _) => (.ok (), made.set place (.file bytes))
    | _ => (.error .isDirectory, made)
  | .error .notFound =>
    match made.freePlace? (made.start path) (components path) with
    | some place => (.ok (), made.set place (.file bytes))
    | none => (.error .notFound, made)
  | .error cause => (.error cause, made)

/-- The tree without the file at a path. A directory is not removed. -/
def remove (t : FileTree) (path : String) : Except FileError FileTree := do
  let place ← t.resolve path
  match t.entry? place with
  | some (.file _) => .ok { t with entries := t.entries.filter (·.1 ≠ place) }
  | some .directory => .error .isDirectory
  | none => .error .notFound

end FileTree
end DocGuard
