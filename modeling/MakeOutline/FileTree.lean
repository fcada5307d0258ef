import MakeOutline.FileSystem
import MakeOutline.Path
import MakeOutline.Text.Utf8

/-!
# File trees

A file system given by its files and directories, each with the components of its path.  The
directories on the way to an entry exist without being listed, and so does the one at the root, to
which relative paths refer.  What lies outside the root is taken to be empty.
-/

namespace MakeOutline

inductive Node where
  | file (bytes : ByteArray)
  | directory (names : List Text)

namespace Node

def isFile : Node → Bool
  | file _ => true
  | directory _ => false

def names : Node → Except ReadFailure (List Text)
  | file _ => .error .notADirectory
  | directory names => .ok names

def contents : Node → Except ReadFailure ByteArray
  | file bytes => .ok bytes
  | directory _ => .error .isADirectory

end Node

structure FileTree where
  files : List (List Text × ByteArray)
  directories : List (List Text)

namespace FileTree

/-- A place in the tree, or outside its root. -/
inductive Place where
  | inside (components : List Text)
  | outside
  deriving DecidableEq, Repr

namespace Place

def components? : Place → Option (List Text)
  | inside components => some components
  | outside => none

/-- Empty names and `.` stay, and `..` goes to the parent. -/
def staysOrRises (name : Text) : Bool := name == [] || name == ['.'] || name == ['.', '.']

/-- The place one step further, whatever is there.  No step leads back from outside. -/
def step (place : Place) (name : Text) : Place :=
  match place with
  | outside => outside
  | inside components =>
    if name = [] ∨ name = ['.'] then inside components
    else if name = ['.', '.'] then
      if components.isEmpty then outside else inside components.dropLast
    else inside (components ++ [name])

/-- The places after each of the steps. -/
def trail (place : Place) : List Text → List Place
  | [] => []
  | name :: names => place.step name :: (place.step name).trail names

end Place

def longestName : Nat := 255

/-- A path with its end mark has to fit in 4096 bytes. -/
def longestPath : Nat := 4095

def empty : FileTree := ⟨[], []⟩

def trailOf (path : Text) : List Place := (Place.inside []).trail (Path.components path)

/-- A file takes the place of an earlier one.  All that its path passes becomes a directory. -/
def addFile (tree : FileTree) (path : Text) (bytes : ByteArray) : FileTree :=
  let file? := (trailOf path).getLast?.bind Place.components?
  { files := file?.toList.map (·, bytes) ++ tree.files
    directories := (trailOf path).dropLast.filterMap Place.components? ++ tree.directories }

def addDirectory (tree : FileTree) (path : Text) : FileTree :=
  { tree with directories := (trailOf path).filterMap Place.components? ++ tree.directories }

/-- The names directly below a place, each once. -/
def namesBelow (tree : FileTree) (components : List Text) : List Text :=
  ((tree.files.map (·.1) ++ tree.directories).filterMap fun entry =>
    if components.isPrefixOf entry then entry[components.length]? else none).eraseDups

def isDirectory (tree : FileTree) (components : List Text) : Bool :=
  components.isEmpty || tree.directories.contains components ||
    !(tree.namesBelow components).isEmpty

def node? (tree : FileTree) : Place → Option Node
  | .outside => some (.directory [])
  | .inside components =>
    match tree.files.lookup components with
    | some bytes => some (.file bytes)
    | none =>
      if tree.isDirectory components then some (.directory (tree.namesBelow components)) else none

/-- One step from a directory to a name in it or to its parent. -/
def enter (tree : FileTree) (place : Place) (name : Text) : Except ReadFailure Place :=
  if Place.staysOrRises name then .ok (place.step name)
  else if place = .outside then .error .notFound
  else if name.utf8Size > longestName then .error .nameTooLong
  else if (tree.node? (place.step name)).isSome then .ok (place.step name)
  else .error .notFound

def walk (tree : FileTree) (place : Place) : List Text → Except ReadFailure Place
  | [] => .ok place
  | name :: names =>
    match tree.node? place with
    | some (.directory _) =>
      match tree.enter place name with
      | .ok next => tree.walk next names
      | .error failure => .error failure
    | some (.file _) => .error .notADirectory
    | none => .error .notFound

/-- The place of a path.  A slash after a file, like a name after it, leads nowhere. -/
def resolve (tree : FileTree) (path : Text) : Except ReadFailure Place :=
  if path.contains '\x00' then .error .nulInName
  else if path.isEmpty then .error .notFound
  else if path.utf8Size > longestPath then .error .nameTooLong
  else tree.walk (if path.head? = some '/' then .outside else .inside []) (Path.components path)

def lookup (tree : FileTree) (path : Text) : Except ReadFailure Node :=
  match tree.resolve path with
  | .error failure => .error failure
  | .ok place =>
    match tree.node? place with
    | some node => .ok node
    | none => .error .notFound

/-- A directory can be opened like a file, but nothing is read from it. -/
def fileSystem (tree : FileTree) : FileSystem where
  isFile path := (tree.lookup path).toOption.any Node.isFile
  names path := (tree.lookup path).bind Node.names
  opened path := (tree.lookup path).map Node.contents

end FileTree

end MakeOutline
