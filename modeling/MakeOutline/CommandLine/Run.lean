import MakeOutline.CommandLine.Listing
import MakeOutline.CommandLine.Options
import MakeOutline.Discovery
import MakeOutline.Makefile.Reading

/-!
# Running the command line

A run lists the targets of each makefile or, if a target is named, prints its invocation.  The first
failure ends the run; what was printed before it stays.

A run is one in an environment that does not ask for the journal.  In one that does, the events are
shown among the errors; they have no part in the outcome here.
-/

namespace MakeOutline.CommandLine

inductive RunError where
  | usage (cause : UsageError)
  | failure (cause : Failure)
  | noMakefile (directory : Text)
  | malformedDefinition (word : Text)
  deriving DecidableEq, Repr

namespace RunError

def messageReport (message : Text) : Text :=
  "ErrorMessage ".toList ++ ['{'] ++ " msg: ".toList ++ message.quoted ++ [' ', '}']

def report : RunError → Text
  | usage cause => cause.report
  | failure cause => cause.report
  | noMakefile directory => messageReport ("no makefile found in ".toList ++ directory)
  | malformedDefinition word => messageReport ("expected NAME=VALUE, got ".toList ++ word.quoted)

end RunError

/-- What a run leaves behind, apart from its journal. -/
structure Outcome where
  output : Text
  errors : Text
  exitCode : Nat
  deriving DecidableEq, Repr

namespace Outcome

def ofOutput (output : Text) (error? : Option RunError) : Outcome :=
  match error? with
  | none => ⟨output, [], 0⟩
  | some error => ⟨output, "Error: ".toList ++ error.report ++ ['\n'], 1⟩

end Outcome

def usageText : Text :=
  ("Usage: list-targets [options] [MAKEFILE...]\n" ++
    "\n" ++
    "Options:\n" ++
    "    -C DIRECTORY        Directory to look for a makefile in\n" ++
    "    -t, --target TARGET Print the make invocation for TARGET\n" ++
    "    -D, --define NAME=VALUE\n" ++
    "                        Set a variable for the invocation\n" ++
    "    -h, --help          Print this help\n").toList

/-- Sets the variables of definitions `NAME=VALUE`, cut at the first equals sign. -/
def define (invocation : Invocation) : List Text → Except RunError Invocation
  | [] => .ok invocation
  | word :: words =>
    match word.splitAtFirst? '=' with
    | none => .error (.malformedDefinition word)
    | some (name, value) =>
      if name.isEmpty then .error (.malformedDefinition word)
      else define (invocation.set name value) words

def makefileOutput (options : Options) (makefile : Makefile) : Except RunError Text :=
  match options.target? with
  | none => .ok (listing makefile)
  | some name =>
    match makefile.invocation name with
    | .error failure => .error (.failure failure)
    | .ok invocation =>
      match define invocation options.defines with
      | .error error => .error error
      | .ok invocation => .ok (invocation.rendered ++ ['\n'])

def fileOutput (files : FileSystem) (options : Options) (path : Text) : Except RunError Text :=
  match Makefile.ofFile files path with
  | .error failure => .error (.failure failure)
  | .ok makefile => makefileOutput options makefile

/-- The output for the files up to the first one that fails, and its error. -/
def filesOutput (files : FileSystem) (options : Options) : List Text → Text × Option RunError
  | [] => ([], none)
  | path :: paths =>
    match fileOutput files options path with
    | .error error => ([], some error)
    | .ok output =>
      let others := filesOutput files options paths
      (output ++ others.1, others.2)

/-- The files to read: those that are named, or the makefile of the directory. -/
def makefilePaths (files : FileSystem) (options : Options) : Except RunError (List Text) :=
  if options.files.isEmpty then
    match makefileIn files options.directory with
    | .error failure => .error (.failure failure)
    | .ok none => .error (.noMakefile options.directory)
    | .ok (some path) => .ok [path]
  else .ok (options.files.map (Path.join options.directory))

def runOptions (files : FileSystem) (options : Options) : Outcome :=
  if options.help then .ofOutput usageText none
  else
    match makefilePaths files options with
    | .error error => .ofOutput [] (some error)
    | .ok paths =>
      let result := filesOutput files options paths
      .ofOutput result.1 result.2

def run (files : FileSystem) (words : List Text) : Outcome :=
  match Options.ofWords? words with
  | .error error => .ofOutput [] (some (.usage error))
  | .ok options => runOptions files options

end MakeOutline.CommandLine
