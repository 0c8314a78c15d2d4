import ChipEight.Failure

/-!
A small tree of files and directories, held in memory. Only a directory can be walked on from, even
by an empty name, so a path that ends in a slash never reads a file.
-/

namespace ChipEight

/-- Directories and files below a working directory, each by the names on the way to it. -/
structure FileTree where
  directories : List (List String) := []
  files : List (List String × List UInt8) := []

inductive Place where
  | outside
  | directory (names : List String)
  | file (content : List UInt8)
  deriving DecidableEq, Repr

namespace FileTree

def nameLimit : Nat := 255

def pathLimit : Nat := 4095

def at? (t : FileTree) (names : List String) : Option Place :=
  match t.files.find? (·.1 = names) with
  | some (_, content) => some (.file content)
  | none => if names = [] ∨ names ∈ t.directories then some (.directory names) else none

def above : List String → Place
  | [] => .outside
  | names => .directory names.dropLast

def follow (t : FileTree) (place : Place) (name : String) : Except FileProblem Place :=
  match place with
  | .file _ => .error .notDirectory
  | .outside =>
    if name = "" ∨ name = "." ∨ name = ".." then .ok .outside
    else if nameLimit < name.utf8ByteSize then .error .nameTooLong
    else .error .missing
  | .directory names =>
    if name = "" ∨ name = "." then .ok place
    else if name = ".." then .ok (above names)
    else if nameLimit < name.utf8ByteSize then .error .nameTooLong
    else
      match t.at? (names ++ [name]) with
      | some place => .ok place
      | none => .error .missing

def names (path : String) : List String :=
  path.splitOn "/"

/-- Where a path starts: one that begins with a slash lies above the tree. -/
def origin (path : String) : Place :=
  if path.toList.head? = some '/' then .outside else .directory []

def resolve (t : FileTree) (path : String) : Except FileProblem Place :=
  if path = "" then .error .missing
  else if pathLimit < path.utf8ByteSize then .error .nameTooLong
  else (names path).foldlM t.follow (origin path)

def read (t : FileTree) (path : String) : Except FileProblem (List UInt8) :=
  match t.resolve path with
  | .ok (.file content) => .ok content
  | .ok _ => .error .isDirectory
  | .error problem => .error problem

def step (place : List String) (name : String) : List String :=
  if name = "" ∨ name = "." then place
  else if name = ".." then place.dropLast
  else place ++ [name]

def addDirectory (t : FileTree) (path : String) : FileTree :=
  let names := names path
  let places := names.mapIdx fun k _ => (names.take (k + 1)).foldl step []
  { t with directories := places ++ t.directories }

def addFile (t : FileTree) (path : String) (content : List UInt8) : FileTree :=
  { t with files := ((names path).foldl step [], content) :: t.files }

end FileTree

end ChipEight
