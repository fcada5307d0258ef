import MakeOutline.Continuation
import MakeOutline.Target

/-!
# Items of a makefile

The lines of a makefile are cut from the top into items.  An item is one line or a group of
continued lines, and every line belongs to exactly one item.  Inside a rule an indented line is a
command even if it is continued; outside a rule, and where no rule for single lines fits, a
continued line starts a group.
-/

namespace MakeOutline

inductive Meaning where
  /-- Blank lines, comments and lines that say nothing that is understood. -/
  | nothing
  | assignment (assignment : Assignment)
  | header (header : Header)
  | command (text : Text)
  /-- A group that is no header, with its merged text. -/
  | dropped (merged : Text)
  deriving DecidableEq, Repr

namespace Meaning

def ofLine (line : Text) : Meaning :=
  match Line.ofText line with
  | .blank => nothing
  | .assignment a => assignment a
  | .header h => header h
  | .command text => command text
  | .other => nothing

def ofGroup (group : List Text) : Meaning :=
  match Header.ofLine? (Continuation.merge group) with
  | some h => header h
  | none => dropped (Continuation.merge group)

/-- Whether a rule is open after an item, given whether one was open before. -/
def ruleOpenAfter (ruleOpen : Bool) : Meaning → Bool
  | header h => !Target.isSpecial h.name
  | _ => ruleOpen

end Meaning

structure Item where
  /-- The number of the item's first line. -/
  line : Nat
  lines : List Text
  meaning : Meaning
  deriving DecidableEq, Repr

namespace Item

/-- Whether the line starts a group, given whether a rule is open. -/
def startsGroup (ruleOpen : Bool) (line : Text) : Bool :=
  isContinued line &&
    match Line.ofText line with
    | .other => true
    | .command _ => !ruleOpen
    | _ => false

/-- The items of the lines from line `number` on, given whether a rule is open there. -/
def ofLines (ruleOpen : Bool) (number : Nat) : List Text → List Item
  | [] => []
  | line :: lines =>
    if startsGroup ruleOpen line then
      let group := (Continuation.split (line :: lines)).1
      let meaning := Meaning.ofGroup group
      ⟨number, group, meaning⟩ ::
        ofLines (meaning.ruleOpenAfter ruleOpen) (number + group.length)
          (Continuation.split (line :: lines)).2
    else
      let meaning := Meaning.ofLine line
      ⟨number, [line], meaning⟩ ::
        ofLines (meaning.ruleOpenAfter ruleOpen) (number + 1) lines
termination_by lines => lines.length
decreasing_by
  · exact Continuation.length_split_lt line lines
  · simp

/-- The items hold every line once and in order. -/
theorem flatMap_lines_ofLines (ruleOpen : Bool) (number : Nat) (lines : List Text) :
    (ofLines ruleOpen number lines).flatMap Item.lines = lines := by
  fun_induction ofLines ruleOpen number lines with
  | case1 => rfl
  | case2 ruleOpen number line lines hgroup group meaning ih =>
    rw [List.flatMap_cons, ih]
    exact Continuation.split_append (line :: lines)
  | case3 ruleOpen number line lines hgroup meaning ih =>
    rw [List.flatMap_cons, ih]
    rfl

end Item

end MakeOutline
