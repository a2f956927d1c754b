import ClassOutline.CommandLine

/-!
# Directories in memory

A tree of files and directories that a run can take for the file system, so that the whole command
line can be tried without touching a disk. Files are written and read by path. A path is resolved
name by name: every name but the last must be that of a directory, `.` and an empty name stay where
they are, and `..` goes up, except from the root, which is above itself. Of what lies outside the
current directory only what every system has is known.
-/

namespace ClassOutline

/-- Files and directories, each by the names on the way to it from the root, the latest first; a
directory has no bytes. -/
structure Directory where
  entries : List (List String × Option (List UInt8))
  deriving DecidableEq, Repr

namespace Directory

/-- The current directory, one for temporary files. Its own name is `.`, which no path can spell,
since that name stays where it is. -/
def current : List String := ["tmp", "."]

def standard : List String :=
  ["bin", "boot", "dev", "etc", "home", "lib", "media", "mnt", "opt", "proc", "root", "run", "sbin",
    "srv", "sys", "tmp", "usr", "var"]

/-- An empty current directory in a system that has the standard directories and the null device. -/
def empty : Directory where
  entries :=
    (current, none) :: (["dev", "null"], some []) :: standard.map fun name => ([name], none)

/-! ## Failures -/

def notFound : IoFailure := ⟨.notFound, "No such file or directory (os error 2)"⟩

def alreadyExists : IoFailure := ⟨.other, "File exists (os error 17)"⟩

def notDirectory : IoFailure := ⟨.notDirectory, "Not a directory (os error 20)"⟩

def isDirectory : IoFailure := ⟨.isDirectory, "Is a directory (os error 21)"⟩

def nameTooLong : IoFailure := ⟨.other, "File name too long (os error 36)"⟩

def maxNameSize : Nat := 255

def maxPathSize : Nat := 4095

/-! ## Places -/

inductive Place where
  | directory (names : List String)
  | file (names : List String) (bytes : List UInt8)
  /-- Nothing yet, in a directory. -/
  | vacant (names : List String)
  deriving DecidableEq, Repr

/-- What is at the given names; the root is a directory. -/
def placeAt (directory : Directory) (names : List String) : Place :=
  if names = [] then .directory []
  else
    match directory.entries.find? (·.1 = names) with
    | some (_, some bytes) => .file names bytes
    | some (_, none) => .directory names
    | none => .vacant names

/-- Where one more name leads. -/
def follow (directory : Directory) (place : Place) (name : String) : Except IoFailure Place :=
  match place with
  | .vacant _ => .error notFound
  | .file .. => .error notDirectory
  | .directory names =>
    if maxNameSize < name.utf8ByteSize then .error nameTooLong
    else if name = "" ∨ name = "." then .ok place
    else if name = ".." then .ok (.directory names.dropLast)
    else .ok (directory.placeAt (names ++ [name]))

/-- Where a path begins: at the root after a slash, else at the current directory. -/
def start (path : String) : Place :=
  .directory (if path.toList.head? = some '/' then [] else current)

/-- The names of a path, unless it is empty or too long. -/
def namesOf (path : String) : Except IoFailure (List String) :=
  if path = "" then .error notFound
  else if maxPathSize < path.utf8ByteSize then .error nameTooLong
  else .ok ((path.toList.splitOn '/').map String.ofList)

def resolve (directory : Directory) (path : String) : Except IoFailure Place := do
  (← namesOf path).foldlM directory.follow (start path)

/-! ## Reading -/

/-- Opens a path. A directory opens like a file, and only reading it fails. -/
def open? (directory : Directory) : FileSystem := fun path =>
  match directory.resolve path with
  | .error failure => .error failure
  | .ok (.vacant _) => .error notFound
  | .ok (.file _ bytes) => .ok [.chunk bytes]
  | .ok (.directory _) => .ok [.failure isDirectory]

/-! ## Writing -/

/-- The directory with a file, or a directory, at the given names. -/
def put (directory : Directory) (names : List String) (content : Option (List UInt8)) : Directory :=
  ⟨(names, content) :: directory.entries⟩

/-- Where one more name leads; where there is nothing yet, a directory is made on the way. -/
def enter (reached : Directory × Place) (name : String) : Except IoFailure (Directory × Place) :=
  match reached with
  | (directory, .vacant names) =>
    let directory := directory.put names none
    (directory.follow (.directory names) name).map (directory, ·)
  | (directory, place) => (directory.follow place name).map (directory, ·)

/-- Where a path leads once the directories on the way are made. -/
def reach (directory : Directory) (path : String) : Except IoFailure (Directory × Place) := do
  (← namesOf path).foldlM enter (directory, start path)

def makeDirectory (directory : Directory) (path : String) : Except IoFailure Directory := do
  match ← directory.reach path with
  | (directory, .vacant names) => return directory.put names none
  | (directory, .directory _) => return directory
  | (_, .file ..) => throw alreadyExists

def writeFile (directory : Directory) (path : String) (bytes : List UInt8) :
    Except IoFailure Directory := do
  match ← directory.reach path with
  | (directory, .vacant names) => return directory.put names (some bytes)
  | (directory, .file names _) => return directory.put names (some bytes)
  | (_, .directory _) => throw isDirectory

end Directory

end ClassOutline
