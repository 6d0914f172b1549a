/-
# Files

A folder of files with times of modification, addressed by paths of names.
Names with slashes are resolved as a file system does: empty parts and single
dots are passed over, and a name that ends in one of them has to be a folder.

* `Disk.pathOf?`: the path that a name leads to, if it stays inside the folder
* `Disk.stat?`: what is found under a name
* `Disk.write`, `Disk.remove`, `Disk.addFolders`: changes; one that is not possible changes
  nothing
-/
import PageServer.Text.Utf8

namespace PageServer

/-- What stands under a path. Times are in seconds. -/
inductive Entry where
  /-- A file with its content. -/
  | file (content : Bytes) (modified : Int)
  /-- A folder. -/
  | folder (modified : Int)
  deriving DecidableEq, Repr

/-- The time at which an entry was last changed. -/
def Entry.modified : Entry → Int
  | file _ time => time
  | folder time => time

/-- A place below a folder. -/
abbrev Path := List Text

/-- The entries below a folder, by path. -/
structure Disk where
  /-- The entries, the one last put first, at most one under each path. -/
  entries : List (Path × Entry) := []
  deriving Inhabited, Repr

namespace Disk

/-! ## Names -/

/-- Whether a name stays inside the folder: it is not empty, does not start with a slash, and
has no part that is two dots. -/
def isInside (name : Text) : Bool :=
  !name.isEmpty && !Text.startsWith "/" name
    && !(Text.splitOn '/' name).contains "..".toList

/-- The parts of a name that lead further. -/
def parts (name : Text) : Path :=
  (Text.splitOn '/' name).filter fun part => !part.isEmpty && decide (part ≠ ".".toList)

/-- Whether a name asks for a folder by ending in an empty part or a single dot. -/
def asksForFolder (name : Text) : Bool :=
  match (Text.splitOn '/' name).getLast? with
  | some part => part.isEmpty || decide (part = ".".toList)
  | none => false

/-- The longest part of a name that a file system takes, in bytes. -/
def maxPart : Nat := 255

/-- The longest name that a file system takes, in bytes. -/
def maxName : Nat := 4095

/-- Whether a file system takes a name at all. -/
def isPossible (name : Text) : Bool :=
  !name.contains ['\x00'] && decide (Utf8.size name ≤ maxName)
    && (Text.splitOn '/' name).all fun part => decide (Utf8.size part ≤ maxPart)

/-- The path that a name leads to, if it stays inside the folder and is possible. -/
def pathOf? (name : Text) : Option Path :=
  if isInside name && isPossible name then some (parts name) else none

/-! ## Looking -/

/-- What stands under a path; the empty path is the folder itself. -/
def entry? (disk : Disk) (path : Path) : Option Entry :=
  if path.isEmpty then some (.folder 0) else disk.entries.lookup path

/-- What is found under a name. -/
def stat? (disk : Disk) (name : Text) : Option Entry :=
  match pathOf? name with
  | none => none
  | some path =>
    match disk.entry? path with
    | some (.file content time) =>
      if asksForFolder name then none else some (.file content time)
    | found => found

/-- The content of the file under a name. -/
def read? (disk : Disk) (name : Text) : Option Bytes :=
  match disk.stat? name with
  | some (.file content _) => some content
  | _ => none

/-- All paths as names, a folder with a slash behind it, in order. -/
def names (disk : Disk) : List Text :=
  (disk.entries.map fun (path, entry) =>
    match entry with
    | .file .. => Text.join "/" path
    | .folder _ => Text.join "/" path ++ ['/']).foldr Text.insertSorted []

/-! ## Changing -/

/-- The disk with an entry under a path. -/
def put (disk : Disk) (path : Path) (entry : Entry) : Disk :=
  { entries := (path, entry) :: disk.entries.filter fun other => decide (other.1 ≠ path) }

/-- The disk with a folder under each start of a path, or nothing if a file is in the way. -/
def addFolders? (disk : Disk) (now : Int) (path : Path) : Option Disk :=
  let starts := (List.range path.length).map fun n => path.take (n + 1)
  starts.foldlM (fun disk start =>
    match disk.entry? start with
    | some (.folder _) => some disk
    | some (.file ..) => none
    | none => some (disk.put start (.folder now))) disk

/-- The disk with a file under a path whose folder exists, unless a folder is in its place. -/
def write (disk : Disk) (path : Path) (content : Bytes) (time : Int) : Disk :=
  match disk.entry? path.dropLast, disk.entry? path with
  | some (.folder _), some (.folder _) => disk
  | some (.folder _), _ => disk.put path (.file content time)
  | _, _ => disk

/-- The disk without the file under a path. -/
def remove (disk : Disk) (path : Path) : Disk :=
  match disk.entry? path with
  | some (.file ..) =>
    { entries := disk.entries.filter fun other => decide (other.1 ≠ path) }
  | _ => disk

/-! ## Edits

What the author of a site does to its files. -/

/-- The disk after a file has been written under a name, with the folders it needs. -/
def edit (disk : Disk) (now : Int) (name : Text) (content : Bytes) (time : Int) : Disk :=
  match pathOf? name with
  | none => disk
  | some path =>
    match disk.addFolders? now path.dropLast with
    | none => disk
    | some disk => disk.write path content time

/-- The disk after the file under a name has been given a time. -/
def touch (disk : Disk) (name : Text) (time : Int) : Disk :=
  match pathOf? name, disk.read? name with
  | some path, some content => disk.put path (.file content time)
  | _, _ => disk

/-- The disk after the file under a name has been deleted. -/
def delete (disk : Disk) (name : Text) : Disk :=
  match pathOf? name with
  | some path => disk.remove path
  | none => disk

end Disk
end PageServer
