import MakeOutline.VariableName

/-!
# Kinds of lines

What a single line of a makefile says.  An assignment may be indented, a header may not, and what
else is indented is a command.  A header that ends in a backslash is left to the group of lines that
it starts.
-/

namespace MakeOutline

/-- Whether the line goes on in the next one. -/
def isContinued (line : Text) : Bool := line.getLast? == some '\\'

/-- A tab or two spaces indent a line. -/
def startsIndented : Text → Bool
  | '\t' :: _ => true
  | ' ' :: ' ' :: _ => true
  | _ => false

structure Assignment where
  name : Text
  value : Text
  deriving DecidableEq, Repr

namespace Assignment

/-- Removes the character that tells one kind of assignment from another, if there is one. -/
def dropFlavour : Text → Text
  | ':' :: t => t
  | '+' :: t => t
  | '?' :: t => t
  | t => t

def ofLine? (line : Text) : Option Assignment :=
  match VariableName.split? line.trimStart with
  | none => none
  | some (name, rest) =>
    match dropFlavour rest.trimStart with
    | '=' :: value => some ⟨name, Text.trim value⟩
    | _ => none

end Assignment

/-- The first line of a rule.  The text after the colon is trimmed. -/
structure Header where
  name : Text
  dependencyText : Text
  deriving DecidableEq, Repr

namespace Header

def isNameChar (c : Char) : Bool := c.isAlphanum || c == '_' || c == '-' || c == '.' || c == '/'

def ofLine? (line : Text) : Option Header :=
  if startsIndented line then none
  else
    let t := line.trimStart
    let name := t.takeWhile isNameChar
    match Text.trimStart (t.dropWhile isNameChar) with
    | ':' :: rest =>
      if name.isEmpty || rest.contains '=' then none else some ⟨name, Text.trim rest⟩
    | _ => none

def dependencies (header : Header) : List Text := header.dependencyText.words

end Header

inductive Line where
  /-- Empty, blank or a comment. -/
  | blank
  | assignment (assignment : Assignment)
  | header (header : Header)
  /-- An indented line, without its indentation. -/
  | command (text : Text)
  | other
  deriving DecidableEq, Repr

namespace Line

def isBlankOrComment (line : Text) : Bool :=
  match line.trimStart with
  | [] => true
  | c :: _ => c == '#'

def ofText (line : Text) : Line :=
  if isBlankOrComment line then .blank
  else
    match Assignment.ofLine? line with
    | some a => .assignment a
    | none =>
      match if isContinued line then none else Header.ofLine? line with
      | some h => .header h
      | none =>
        if startsIndented line then .command (line.dropWhile fun c => c == '\t' || c == ' ')
        else .other

def assignment? : Line → Option Assignment
  | assignment a => some a
  | _ => none

end Line

end MakeOutline
