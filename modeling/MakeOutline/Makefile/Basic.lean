import MakeOutline.Extraction.State
import MakeOutline.Failure
import MakeOutline.Invocation

/-!
# Makefiles

What is extracted from a makefile: its targets, in the order in which their names first occur, and
the last value of every variable.
-/

namespace MakeOutline

structure Makefile where
  targets : List Target
  table : Variables
  deriving DecidableEq

namespace Makefile

def ofLines (lines : List Text) : Makefile :=
  ⟨Extraction.targetsOf lines, Extraction.tableOf lines⟩

def byteOrderMark : Char := '\uFEFF'

/-- The lines of a text, without the byte order marks in front of it. -/
def linesOfText (t : Text) : List Text := Text.lines (t.dropWhile (· == byteOrderMark))

def ofText (t : Text) : Makefile := ofLines (linesOfText t)

def target? (makefile : Makefile) (name : Text) : Option Target :=
  makefile.targets.find? (·.name == name)

/-- The invocation of a target, with the makefile's own values for what it requires. -/
def invocation (makefile : Makefile) (name : Text) : Except Failure Invocation :=
  match makefile.target? name with
  | some target => .ok (.prefilled target makefile.table)
  | none => .error (.unknownTarget name)

end Makefile

end MakeOutline
