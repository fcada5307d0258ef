import MakeOutline.Text.Quoted
import MakeOutline.Text.Utf8

/-!
# Options of the command line

The words of a command line are options, values of options, and files.  Options and files may be
mixed; after the word `--` all words are files.  A word `-` and an empty word are files as well.

The rules by which words are read, and the order in which errors are found, are those of the package
`getopts` in its version 0.2.  They are taken from what is documented of it: the package itself is
not part of this development.
-/

namespace MakeOutline.CommandLine

inductive UsageError where
  | unrecognizedOption (name : Text)
  | argumentMissing (name : Text)
  | unexpectedArgument (name : Text)
  | optionDuplicated (name : Text)
  deriving DecidableEq, Repr

namespace UsageError

def report : UsageError → Text
  | unrecognizedOption name => "UnrecognizedOption(".toList ++ name.quoted ++ [')']
  | argumentMissing name => "ArgumentMissing(".toList ++ name.quoted ++ [')']
  | unexpectedArgument name => "UnexpectedArgument(".toList ++ name.quoted ++ [')']
  | optionDuplicated name => "OptionDuplicated(".toList ++ name.quoted ++ [')']

end UsageError

/-- The options that take a value. -/
inductive Setting where
  | directory
  | target
  | define
  deriving DecidableEq, Repr

inductive Switch where
  | setting (setting : Setting)
  | help
  deriving DecidableEq, Repr

namespace Switch

def ofLetter? : Char → Option Switch
  | 'C' => some (setting .directory)
  | 't' => some (setting .target)
  | 'D' => some (setting .define)
  | 'h' => some help
  | _ => none

/-- The switch of a name after two dashes.  A name of one letter is the letter of the switch. -/
def ofName? (name : Text) : Option Switch :=
  match name with
  | [c] => ofLetter? c
  | _ =>
    if name = "target".toList then some (setting .target)
    else if name = "define".toList then some (setting .define)
    else if name = "help".toList then some help
    else none

end Switch

/-- A setting whose value may be in its own word or in the next one. -/
structure SettingUse where
  setting : Setting
  writtenName : Text
  value? : Option Text
  deriving DecidableEq, Repr

/-- What a word of options says: how often it asks for help, and the setting that it ends with. -/
structure OptionWord where
  helpCount : Nat
  setting? : Option SettingUse
  deriving DecidableEq, Repr

namespace OptionWord

/-- The letters after a single dash.  What follows the letter of a setting is its value. -/
def ofLetters? : Text → Except UsageError OptionWord
  | [] => .ok ⟨0, none⟩
  | c :: rest =>
    match Switch.ofLetter? c with
    | none => .error (.unrecognizedOption [c])
    | some .help =>
      match ofLetters? rest with
      | .ok word => .ok { word with helpCount := word.helpCount + 1 }
      | .error e => .error e
    | some (.setting s) => .ok ⟨0, some ⟨s, [c], if rest.isEmpty then none else some rest⟩⟩

/-- The name after two dashes, with the value after its first equals sign. -/
def ofName? (t : Text) : Except UsageError OptionWord :=
  let name := t.takeWhile (· != '=')
  let value? := (t.splitAtFirst? '=').map (·.2)
  match Switch.ofName? name, value? with
  | none, _ => .error (.unrecognizedOption name)
  | some .help, some _ => .error (.unexpectedArgument name)
  | some .help, none => .ok ⟨1, none⟩
  | some (.setting s), value? => .ok ⟨0, some ⟨s, name, value?⟩⟩

def read (word : Text) : Except UsageError OptionWord :=
  match word with
  | '-' :: '-' :: name => ofName? name
  | _ => ofLetters? word.tail

end OptionWord

/-- What the words of a command line give, each list in the order of the words. -/
structure Given where
  directories : List Text
  targets : List Text
  defines : List Text
  helpCount : Nat
  files : List Text
  deriving DecidableEq, Repr

namespace Given

def empty : Given := ⟨[], [], [], 0, []⟩

def addFiles (given : Given) (files : List Text) : Given :=
  { given with files := given.files ++ files }

def addHelp (given : Given) (count : Nat) : Given :=
  { given with helpCount := given.helpCount + count }

def addValue (given : Given) (setting : Setting) (value : Text) : Given :=
  match setting with
  | .directory => { given with directories := given.directories ++ [value] }
  | .target => { given with targets := given.targets ++ [value] }
  | .define => { given with defines := given.defines ++ [value] }

def isOption (word : Text) : Bool :=
  match word with
  | '-' :: _ :: _ => true
  | _ => false

/-- Reads the words one after the other.  The first one that is wrong decides the error. -/
def read (given : Given) : List Text → Except UsageError Given
  | [] => .ok given
  | word :: words =>
    if !isOption word then read (given.addFiles [word]) words
    else if word = ['-', '-'] then .ok (given.addFiles words)
    else
      match OptionWord.read word, words with
      | .error e, _ => .error e
      | .ok ⟨count, none⟩, words => read (given.addHelp count) words
      | .ok ⟨count, some ⟨setting, _, some value⟩⟩, words =>
        read ((given.addHelp count).addValue setting value) words
      | .ok ⟨count, some ⟨setting, _, none⟩⟩, value :: words =>
        read ((given.addHelp count).addValue setting value) words
      | .ok ⟨_, some ⟨_, name, none⟩⟩, [] => .error (.argumentMissing name)

end Given

structure Options where
  directory : Text
  target? : Option Text
  defines : List Text
  help : Bool
  files : List Text
  deriving DecidableEq, Repr

namespace Options

/-- Only definitions may be given more than once. -/
def ofGiven? (given : Given) : Except UsageError Options :=
  if given.directories.length > 1 then .error (.optionDuplicated ['C'])
  else if given.targets.length > 1 then .error (.optionDuplicated "target".toList)
  else if given.helpCount > 1 then .error (.optionDuplicated "help".toList)
  else
    .ok
      { directory := given.directories.head?.getD ['.']
        target? := given.targets.head?
        defines := given.defines
        help := given.helpCount > 0
        files := given.files }

def ofWords? (words : List Text) : Except UsageError Options :=
  match Given.empty.read words with
  | .ok given => ofGiven? given
  | .error e => .error e

end Options

end MakeOutline.CommandLine
