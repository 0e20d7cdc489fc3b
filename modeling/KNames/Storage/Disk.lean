import KNames.Storage.FileSystem

set_option autoImplicit false

/-!
# A disk

A file system of directories and files that everyone may read and write, each known by the names
that lead to it from the root. A path is followed name by name: every name but the last must lead to
a directory, `.` stays and `..` goes back one directory, but not above the root.
-/
namespace KNames.Storage

inductive Stored where
  | directory
  | file (content : ByteArray)

def Stored.isDirectory : Stored → Bool
  | directory => true
  | file _ => false

abbrev Place := List String

structure Disk where
  entries : List (Place × Stored)

structure Path where
  way : List String
  last : String
  slashed : Bool
deriving DecidableEq, Repr

namespace Path

def maxLength : Nat := 4096

def maxNameLength : Nat := 255

def names (text : String) : List String :=
  ((text.toList.splitOn '/').filter (!·.isEmpty)).map String.ofList

def ofString (text : String) : Except SystemError Path :=
  if text.toList.contains '\x00' then .error .zeroInName
  else if maxLength ≤ text.utf8ByteSize then .error .nameTooLong
  else
    match (names text).getLast? with
    -- Slashes alone mean the root.
    | none => .error (if text.isEmpty then .notFound else .isDirectory)
    | some last => .ok ⟨(names text).dropLast, last, text.toList.getLast? == some '/'⟩

end Path

namespace Disk

def empty : Disk := ⟨[]⟩

def at? (d : Disk) : Place → Option Stored
  | [] => some .directory
  | place => d.entries.lookup place

def put (d : Disk) (place : Place) (stored : Stored) : Disk :=
  ⟨(place, stored) :: d.entries.filter (·.1 ≠ place)⟩

def enter (place : Place) (name : String) : Except SystemError Place :=
  if name = "." then .ok place
  else if name = ".." then .ok place.dropLast
  else if Path.maxNameLength < name.utf8ByteSize then .error .nameTooLong
  else .ok (place ++ [name])

def follow (d : Disk) (place : Place) : List String → Except SystemError Place
  | [] => .ok place
  | name :: names => do
    let next ← enter place name
    match d.at? next with
    | none => .error .notFound
    | some (.file _) => .error .notDirectory
    | some .directory => d.follow next names

/-- The place that a path means, which need not hold anything yet. -/
def place (d : Disk) (path : Path) : Except SystemError Place := do
  enter (← d.follow [] path.way) path.last

def read (d : Disk) (path : Path) : Except SystemError ByteArray := do
  match d.at? (← d.place path) with
  | none => .error .notFound
  | some .directory => .error .isDirectory
  | some (.file content) => if path.slashed then .error .notDirectory else .ok content

/-- Makes or replaces a file. A name with a slash after it can only mean a directory, so it is
refused before it is looked up. -/
def write (d : Disk) (path : Path) (content : ByteArray) : Except SystemError Disk := do
  let parent ← d.follow [] path.way
  if path.slashed then .error .isDirectory
  else
    let place ← enter parent path.last
    if (d.at? place).any Stored.isDirectory then .error .isDirectory
    else .ok (d.put place (.file content))

def system : FileSystem Disk where
  read d text := (Path.ofString text).bind d.read
  write d text content := (Path.ofString text).bind (d.write · content)

end Disk

end KNames.Storage
