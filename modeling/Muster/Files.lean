import Muster.Text.Utf8

/-!
# Files

What stands under each path.  Nothing here depends on where the contents come
from.

A path is walked name by name.  An empty name and a point stay where they are,
two points go up, and nothing follows a file, not even a name that would stay
there.
-/

namespace Muster

open Text

/-- Why a path leads nowhere. -/
inductive Obstacle
  | noSuchFile
  /-- something on the way is a file -/
  | notDirectory
  | nameTooLong
  /-- a NUL is part of no name -/
  | nul
  deriving DecidableEq, Repr

def Obstacle.message : Obstacle → String
  | noSuchFile => "No such file or directory (os error 2)"
  | notDirectory => "Not a directory (os error 20)"
  | nameTooLong => "File name too long (os error 36)"
  | nul => "file name contained an unexpected NUL byte"

/-- What stands under a path. -/
inductive Entry
  | unreachable (obstacle : Obstacle)
  | directory
  | contents (bytes : List UInt8)
  deriving DecidableEq, Repr

abbrev Files := String → Entry

/-- Why a text was not read from a file. -/
inductive ReadError
  | unreachable (obstacle : Obstacle)
  | isDirectory
  | notUtf8
  deriving DecidableEq, Repr

def ReadError.message : ReadError → String
  | unreachable obstacle => obstacle.message
  | isDirectory => "Is a directory (os error 21)"
  | notUtf8 => "stream did not contain valid UTF-8"

/-- A directory with files in it. -/
structure Folder where
  /-- what stands for the path that leads from the root to the folder -/
  name : String
  files : List (String × List UInt8)

/-- Where a walk has got to. -/
inductive Place
  | root
  /-- the folder -/
  | folder
  | file (bytes : List UInt8)
  /-- a directory that nothing is known of -/
  | elsewhere

namespace Folder

def find (folder : Folder) (name : String) : Place → Except Obstacle Place
  | .root => if name = folder.name then .ok .folder else .error .noSuchFile
  | .folder =>
    match folder.files.lookup name with
    | some bytes => .ok (.file bytes)
    | none => .error .noSuchFile
  | .file _ => .error .notDirectory
  | .elsewhere => .error .noSuchFile

/-- One step of a walk.  Of the directory above the folder nothing is known. -/
def step (folder : Folder) (place : Place) (name : String) : Except Obstacle Place :=
  match place, name with
  | .file _, _ => .error .notDirectory
  | place, "" => .ok place
  | place, "." => .ok place
  | .root, ".." => .ok .root
  | _, ".." => .ok .elsewhere
  | place, name =>
    if 255 < (utf8 name).length then .error .nameTooLong else folder.find name place

/-- Where a path leads.  It is walked from the root, also when it starts with the
name of the folder, or else from a directory that nothing is known of. -/
def walk (folder : Folder) (path : String) : Except Obstacle Place :=
  if path.isEmpty then .error .noSuchFile
  else if path.toList.contains '\x00' then .error .nul
  else if 4096 ≤ (utf8 path).length then .error .nameTooLong
  else
    let names := (path.toList.splitOn '/').map String.ofList
    let isAbsolute := names.head? = some "" ∨ names.head? = some folder.name
    names.foldlM folder.step (if isAbsolute then .root else .elsewhere)

def contents (folder : Folder) : Files := fun path =>
  match folder.walk path with
  | .error obstacle => .unreachable obstacle
  | .ok (.file bytes) => .contents bytes
  | .ok _ => .directory

end Folder

namespace Files

/-- Whether a path leads to a file that holds something or nothing. -/
def isFile (files : Files) (path : String) : Bool :=
  match files path with
  | .contents _ => true
  | _ => false

def readText (files : Files) (path : String) : Except ReadError (List UInt8) :=
  match files path with
  | .unreachable obstacle => .error (.unreachable obstacle)
  | .directory => .error .isDirectory
  | .contents bytes => if (ofUtf8? bytes).isSome then .ok bytes else .error .notUtf8

end Files

end Muster
