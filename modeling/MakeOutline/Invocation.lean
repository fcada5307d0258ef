import MakeOutline.Target
import MakeOutline.Variables

/-!
# Invocations

The command line that makes a target, with values for variables.  An argument keeps the place at
which it was first set; its value is trimmed, and setting it to a blank value takes it away.
-/

namespace MakeOutline

structure Invocation where
  target : Text
  arguments : List (Text × Text)
  deriving DecidableEq, Repr

namespace Invocation

def ofTarget (target : Target) : Invocation := ⟨target.name, []⟩

/-- The arguments with the one of the given name changed, or with a new one at their end. -/
def putArgument (name value : Text) : List (Text × Text) → List (Text × Text)
  | [] => [(name, value)]
  | first :: others =>
    if first.1 = name then (name, value) :: others else first :: putArgument name value others

def set (invocation : Invocation) (name value : Text) : Invocation :=
  { invocation with
    arguments :=
      if value.trim.isEmpty then invocation.arguments.filter (·.1 != name)
      else putArgument name value.trim invocation.arguments }

/-- The arguments are set for the names that the target requires and the table knows. -/
def prefilled (target : Target) (defaults : Variables) : Invocation :=
  target.required.foldl
    (fun invocation name =>
      match defaults.get? name with
      | some value => invocation.set name value
      | none => invocation)
    (ofTarget target)

def get? (invocation : Invocation) (name : Text) : Option Text :=
  invocation.arguments.lookup name

def words (invocation : Invocation) : List Text :=
  "make".toList :: invocation.target ::
    invocation.arguments.map fun (name, value) => name ++ ['='] ++ value

/-- The words with spaces between them.  Nothing is quoted. -/
def rendered (invocation : Invocation) : Text := Text.joinedBy [' '] invocation.words

end Invocation

end MakeOutline
