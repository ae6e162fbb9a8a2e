import LoxCheck.Command.Source

/-!
# File trees

A file system whose files are listed. A path is walked part by part, from the working directory or
from the root, and the same walk tells where an entry is put and what a path finds: a dot stays, two
dots go up, a name goes down. Of the directories above the working directory and of the root only
the entries are known.
-/

namespace LoxCheck

/-! ## Locations -/

/-- Where names are counted from. -/
inductive FileBase where
  /-- The directory a number of levels above the working directory. -/
  | above (levels : Nat)
  | root
  deriving DecidableEq, Repr

/-- A location in a file system, by the names that lead to it. -/
structure FileLocation where
  base : FileBase
  names : List String := []
  deriving DecidableEq, Repr

namespace FileLocation

/-- The directory that holds a location. The root holds itself. -/
def parent (l : FileLocation) : FileLocation :=
  match l.names, l.base with
  | _ :: _, _ => { l with names := l.names.dropLast }
  | [], .above levels => { base := .above (levels + 1) }
  | [], .root => l

/-- The location that one part of a path leads to. -/
def enter (l : FileLocation) (part : String) : FileLocation :=
  if part = "" || part = "." then l
  else if part = ".." then l.parent
  else { l with names := l.names ++ [part] }

/-- The location that a path is walked from. -/
def startOf (path : String) : FileLocation :=
  { base := if path.startsWith "/" then .root else .above 0 }

end FileLocation

/-! ## Entries -/

/-- An entry of a file tree. -/
inductive FileEntry where
  | file (content : ByteArray)
  | directory

/-- The entries of a file tree under their locations. A later entry takes the place of an earlier
one of the same location. -/
abbrev FileTree := List (FileLocation × FileEntry)

namespace FileTree

/-- The parts of a path between its slashes. -/
def parts (path : String) : List String :=
  let (part, others) := path.toList.foldr
    (fun c acc => if c = '/' then ([], acc.1 :: acc.2) else (c :: acc.1, acc.2))
    (([] : List Char), ([] : List (List Char)))
  (part :: others).map String.ofList

/-- The entry at a location. -/
def find? (tree : FileTree) (location : FileLocation) : Option FileEntry :=
  (tree.reverse.find? (·.1 == location)).map (·.2)

/-- The tree with an entry at a path, and directories at the locations that the path passes. -/
def insert (tree : FileTree) (path : String) (entry : FileEntry) : FileTree :=
  let (location, passed) := (parts path).foldl
    (fun acc part => (acc.1.enter part, acc.2 ++ [(acc.1, FileEntry.directory)]))
    (FileLocation.startOf path, [])
  tree ++ passed ++ [(location, entry)]

/-- What the root of every system holds: some directories, and the null device, which reads as an
empty file. -/
def standard : FileTree :=
  (["/bin", "/etc", "/proc", "/tmp", "/usr", "/var"].foldl
    (fun tree path => insert tree path .directory) []).insert "/dev/null" (.file .empty)

/-! ## Opening -/

/-- A place that a path leads to. -/
inductive Place where
  | directory (location : FileLocation)
  | file (content : ByteArray)

/-- The greatest number of bytes of a name. -/
def maxName : Nat := 255

/-- The least number of bytes that is too many for a path. -/
def maxPath : Nat := 4096

/-- Where one part of a path leads from a place. Only names are looked up: a directory has a
directory above it and is one itself. -/
def step (tree : FileTree) (place : Place) (part : String) : Except SystemError Place :=
  match place with
  | .file _ => .error .notADirectory
  | .directory here =>
    let there := here.enter part
    if part = "" || part = "." || part = ".." then .ok (.directory there)
    else if maxName < part.utf8ByteSize then .error .nameTooLong
    else match find? tree there with
      | some .directory => .ok (.directory there)
      | some (.file content) => .ok (.file content)
      | none => .error .notFound

/-- The content of the file that a path leads to. -/
def openFile (tree : FileTree) : FileSystem := fun path =>
  if path = "" then .error (.opening .notFound)
  else if maxPath ≤ path.utf8ByteSize then .error (.opening .nameTooLong)
  else match (parts path).foldlM (step tree) (.directory (FileLocation.startOf path)) with
    | .error e => .error (.opening e)
    | .ok (.file content) => .ok content
    | .ok (.directory _) => .error (.opening .isADirectory)

end FileTree

end LoxCheck
