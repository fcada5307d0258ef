import MakeOutline.Event
import MakeOutline.Extraction.State

/-!
# The journal of an extraction

The events of the two passes over the lines of a makefile.  A target that replaces an earlier one is
reported when its rule ends.
-/

namespace MakeOutline

/-- The journal of making the assignments one after the other. -/
def Variables.assignmentJournal (assignments : List (Text × Text)) : Journal :=
  assignments.map fun (name, value) => .settingVariable name value

namespace Extraction

namespace State

def closeJournal (state : State) : Journal :=
  match state.draft? with
  | none => []
  | some draft =>
    match state.targets.find? (·.name == draft.name) with
    | none => []
    | some earlier => [.overwritingTarget draft.name earlier.line draft.line]

def stepJournal (state : State) (item : Item) : Journal :=
  match item.meaning with
  | .nothing => []
  | .assignment a => [.settingVariable a.name a.value]
  | .header header =>
    state.closeJournal ++
      if Target.isSpecial header.name then [.ignoringSpecial header.name item.line]
      else [.openingTarget header.name header.dependencyText item.line]
  | .command _ => []
  | .dropped merged => [.droppingContinued item.line merged]

def itemsJournal (state : State) : List Item → Journal
  | [] => []
  | item :: items => state.stepJournal item ++ (state.step item).itemsJournal items

end State

def targetsJournal (lines : List Text) : Journal :=
  State.initial.itemsJournal (Item.ofLines State.initial.ruleOpen 1 lines) ++
    (State.initial.readLines 1 lines).closeJournal ++ [.extractedTargets (targetsOf lines).length]

def tableJournal (lines : List Text) : Journal :=
  Variables.assignmentJournal (assignments lines)

end Extraction

end MakeOutline
