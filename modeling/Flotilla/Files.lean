import Flotilla.IoFault
import Flotilla.Table
import Flotilla.Text.Utf8

/-!
# Files

A `Files` holds the contents of files by path and the directories that exist.  Reading and
appending fail the way the operating system lets them.
-/

namespace Flotilla

/-- Files and directories by their absolute paths. -/
structure Files where
  contents : Table String Bytes := .empty
  directories : List String := ["/"]

namespace Files

/-- The names along a path, without empty ones and dots. -/
def names (path : String) : List String :=
  (((path.toList.splitOn '/').map String.ofList).filter fun n => n ≠ "" ∧ n ≠ ".").foldl
    (fun names n => if n = ".." then names.dropLast else names ++ [n]) []

/-- The path along names. -/
def ofNames (names : List String) : String := "/" ++ "/".intercalate names

/-- The plain form of a path. -/
def plain (path : String) : String := ofNames (names path)

/-- The directory that a path lies in. -/
def parent (path : String) : String := ofNames (names path).dropLast

/-- Whether there is a directory of this path. -/
def isDirectory (fs : Files) (path : String) : Bool := fs.directories.contains (plain path)

/-- Why there is nothing at a path. -/
def absence (fs : Files) (path : String) : IoFault :=
  if fs.contents.contains (parent path) then .notDirectory else .missing

/-- What a file holds. -/
def read (fs : Files) (path : String) : Except IoFault Bytes :=
  if path = "" then .error .missing
  else if fs.isDirectory path then .error .isDirectory
  else match fs.contents.find? (plain path) with
    | some bytes => if path.endsWith "/" then .error .notDirectory else .ok bytes
    | none => .error (fs.absence path)

/-- The text that a file holds. -/
def readText (fs : Files) (path : String) : Except IoFault String := do
  match Utf8.decode (← fs.read path) with
  | .ok s => return s
  | .error _ => throw .notText

/-- Sets what a file holds. -/
def write (fs : Files) (path : String) (bytes : Bytes) : Files :=
  { fs with contents := fs.contents.insert (plain path) bytes }

/-- Adds bytes to the end of a file, which is created if there is none. -/
def append (fs : Files) (path : String) (bytes : Bytes) : Except IoFault Files :=
  match fs.read path with
  | .ok old => .ok (fs.write path (old ++ bytes))
  | .error .missing =>
    if path ≠ "" ∧ fs.isDirectory (parent path) ∧ ¬ path.endsWith "/" then .ok (fs.write path bytes)
    else .error .missing
  | .error e => .error e

/-- Adds a directory and those it lies in. -/
def addDirectory (fs : Files) (path : String) : Files :=
  { fs with
    directories := fs.directories ++
      (List.range ((names path).length + 1)).map fun n => ofNames ((names path).take n) }

/-- Makes sure that there is a directory, and adds it with those it lies in if there is not. -/
def createDirectory (fs : Files) (path : String) : Except IoFault Files :=
  let path := plain path
  let along := (List.range ((names path).length + 1)).map fun n => ofNames ((names path).take n)
  match along.find? fun p => (fs.contents.find? p).isSome with
  | some p => .error (if p = path then .taken else .notDirectory)
  | none => .ok (fs.addDirectory path)

end Files

end Flotilla
