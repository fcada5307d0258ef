import MakeOutline.Line
import MakeOutline.Reference
import MakeOutline.Target
import MakeOutline.Variables

/-!
# Drafts of targets

A target is a draft while its recipe is being read.  Finished targets are kept in the order in
which their names first occurred.
-/

namespace MakeOutline

/-- The names followed by those of `more` that they lack, each once, in the order of first use. -/
def addUnseen (names more : List Text) : List Text :=
  more.foldl (fun seen name => if seen.contains name then seen else seen ++ [name]) names

namespace Target

structure Draft where
  name : Text
  dependencies : List Text
  required : List Text
  recipe : List Text
  line : Nat
  deriving DecidableEq, Repr

namespace Draft

def ofHeader (header : Header) (line : Nat) : Draft :=
  ⟨header.name, header.dependencies, [], [], line⟩

/-- The names are collected from the command as written, so a name without a value counts too. -/
def addCommand (draft : Draft) (table : Variables) (command : Text) : Draft :=
  { draft with
    required := addUnseen draft.required command.referencedNames
    recipe := draft.recipe ++ [table.expand command] }

def toTarget (draft : Draft) : Target :=
  ⟨draft.name, draft.dependencies, Text.joinedBy ['\n'] draft.recipe, draft.required, draft.line⟩

end Draft

/-- A target takes the place of an earlier one of its name, and else comes last. -/
def putInto (target : Target) : List Target → List Target
  | [] => [target]
  | first :: others =>
    if first.name = target.name then target :: others else first :: target.putInto others

end Target

end MakeOutline
