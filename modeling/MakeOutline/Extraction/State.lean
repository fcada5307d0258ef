import MakeOutline.Extraction.Draft
import MakeOutline.Item

/-!
# Extracting targets and variables

Two passes go over the lines of a makefile.  The first takes its items one after the other; its
state holds the variables assigned so far, the draft of the rule that is open, and the finished
targets.  A command is expanded with the variables assigned above it, so a later assignment does not
change it.  The second pass looks at every line on its own and collects what the assignments give.
-/

namespace MakeOutline.Extraction

structure State where
  table : Variables
  draft? : Option Target.Draft
  targets : List Target
  deriving DecidableEq

namespace State

def initial : State := ⟨.empty, none, []⟩

def ruleOpen (state : State) : Bool := state.draft?.isSome

/-- Ends the open rule, if there is one. -/
def closeRule (state : State) : State :=
  match state.draft? with
  | none => state
  | some draft => { state with draft? := none, targets := draft.toTarget.putInto state.targets }

/-- A header ends the rule above it, even if its own name is special and it starts none. -/
def startRule (state : State) (header : Header) (line : Nat) : State :=
  if Target.isSpecial header.name then state.closeRule
  else { state.closeRule with draft? := some (.ofHeader header line) }

def step (state : State) (item : Item) : State :=
  match item.meaning with
  | .nothing => state
  | .assignment a => { state with table := state.table.assign a.name a.value }
  | .header header => state.startRule header item.line
  | .command text => { state with draft? := state.draft?.map (·.addCommand state.table text) }
  | .dropped _ => state

/-- The state after the lines, the first of which has the given number. -/
def readLines (state : State) (number : Nat) (lines : List Text) : State :=
  (Item.ofLines state.ruleOpen number lines).foldl step state

/-- The targets when no line is left.  A blank name is none that a user could ask for. -/
def result (state : State) : List Target :=
  state.closeRule.targets.filter (!·.name.trim.isEmpty)

end State

def targetsOf (lines : List Text) : List Target := (State.initial.readLines 1 lines).result

/-- The assignments that single lines make, in order. -/
def assignments (lines : List Text) : List (Text × Text) :=
  lines.filterMap fun line => (Line.ofText line).assignment?.map fun a => (a.name, a.value)

def tableOf (lines : List Text) : Variables := .ofList (assignments lines)

end MakeOutline.Extraction
