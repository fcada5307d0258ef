import MakeOutline.Event
import MakeOutline.FileSystem
import MakeOutline.Path

/-!
# Finding a makefile

A directory's makefile is the first of the conventional names that is a file in it, and otherwise
the alphabetically first file whose name looks like that of a makefile.  A text whose first lines
hold something like a rule looks like a makefile, whatever its name.
-/

namespace MakeOutline

def conventionalNames : List Text :=
  ["GNUmakefile".toList, "makefile".toList, "Makefile".toList]

/-- Names of makefiles in lower case. -/
def knownMakefileNames : List Text :=
  ["makefile".toList, "makefile.txt".toList, "makefile.mk".toList, "gnumakefile".toList,
    "bmakefile".toList]

/-- The lower case of the characters whose lower case is a letter from `a` to `z`: the capital
letters from `A` to `Z` and the kelvin sign. -/
def lowerLetter (c : Char) : Char := if c = '\u212A' then 'k' else c.toLower

/-- Whether the name of what the path leads to is that of a makefile, in capitals or not. -/
def namesMakefile (path : Text) : Bool :=
  match Path.fileName? path with
  | none => false
  | some name =>
    let lower := name.map lowerLetter
    knownMakefileNames.contains lower || "makefile".toList.isPrefixOf lower ||
      ".mk".toList.isSuffixOf lower

def linesToInspect : Nat := 10

/-- A line with a colon and no equals sign that is not a comment. -/
def resemblesRule (line : Text) : Bool :=
  let t := line.trim
  t.head? != some '#' && t.contains ':' && !t.contains '='

def resemblesMakefile (lines : List Text) : Bool := (lines.take linesToInspect).any resemblesRule

def conventionalIn? (files : FileSystem) (directory : Text) : Option Text :=
  (conventionalNames.map (Path.join directory)).find? files.isFile

def makefileIn (files : FileSystem) (directory : Text) : Except Failure (Option Text) :=
  match conventionalIn? files directory with
  | some path => .ok (some path)
  | none =>
    match files.names directory with
    | .error failure => .error (.read directory failure)
    | .ok names =>
      let candidates := names.filter fun name =>
        files.isFile (Path.join directory name) && namesMakefile (Path.join directory name)
      .ok ((candidates.mergeSort fun a b => (compare a b).isLE).head?.map (Path.join directory))

def makefileInJournal (files : FileSystem) (directory : Text) : Journal :=
  match conventionalIn? files directory with
  | some path => [.foundDefault path]
  | none => []

end MakeOutline
