import MakeOutline.Extraction.Journal
import MakeOutline.Proofs.Runs

/-!
# Redefinitions in the journal

The journal of an extraction tells what became of every rule that was opened.  A
rule is reported to overwrite another when it ends, not when it is opened, so the
state is looked at with the lines on which a name was last opened: that of the
finished target, and that of the open rule if it has the name.  Each rule but the
first of its name overwrites the one before it.
-/

namespace MakeOutline

/-! ## Entries under a name -/

/-- The values of the entries with the given name, in order. -/
def valuesUnder {α : Type} (name : Text) (entries : List (Text × α)) : List α :=
  entries.filterMap fun (other, value) => if other = name then some value else none

theorem valuesUnder_append {α : Type} (name : Text) (first second : List (Text × α)) :
    valuesUnder name (first ++ second) = valuesUnder name first ++ valuesUnder name second :=
  List.filterMap_append

@[simp] theorem valuesUnder_nil {α : Type} (name : Text) :
    valuesUnder name ([] : List (Text × α)) = [] :=
  rfl

theorem valuesUnder_singleton {α : Type} (name other : Text) (value : α) :
    valuesUnder name [(other, value)] = if other = name then [value] else [] := by
  by_cases hname : other = name <;> simp [valuesUnder, hname]

theorem consecutivePairs_append {α : Type} (first second : List α) :
    (first ++ second).consecutivePairs =
      first.consecutivePairs ++ (first.getLast?.toList ++ second).consecutivePairs := by
  induction first with
  | nil => rfl
  | cons a first ih =>
      cases first with
      | nil => rfl
      | cons b first =>
          rw [List.getLast?_cons_cons, List.cons_append, List.cons_append]
          exact congrArg ((a, b) :: ·) ih

theorem getLast?_toList_append {α : Type} (first second : List α) :
    (first.getLast?.toList ++ second).getLast? = (first ++ second).getLast? := by
  rw [List.getLast?_append, List.getLast?_append]
  cases first.getLast? <;> rfl

/-! ## What a journal reports -/

namespace Event

def opening? : Event → Option (Text × Nat)
  | openingTarget name _ line => some (name, line)
  | _ => none

/-- The name, the line of the earlier rule and the line of the later one. -/
def overwriting? : Event → Option (Text × Nat × Nat)
  | overwritingTarget name earlier later => some (name, earlier, later)
  | _ => none

def extractedCount? : Event → Option Nat
  | extractedTargets count => some count
  | _ => none

/-- Nothing is warned of but that a target is overwritten. -/
theorem isSome_overwriting? (event : Event) :
    event.overwriting?.isSome = (event.level == .warn) := by
  cases event <;> rfl

end Event

namespace Journal

def openings (journal : Journal) : List (Text × Nat) := journal.filterMap Event.opening?

def overwritings (journal : Journal) : List (Text × Nat × Nat) :=
  journal.filterMap Event.overwriting?

def warnings (journal : Journal) : Journal := journal.filter (·.level == .warn)

theorem openings_append (first second : Journal) :
    openings (first ++ second) = openings first ++ openings second :=
  List.filterMap_append

theorem overwritings_append (first second : Journal) :
    overwritings (first ++ second) = overwritings first ++ overwritings second :=
  List.filterMap_append

theorem length_warnings (journal : Journal) :
    journal.warnings.length = journal.overwritings.length := by
  unfold warnings overwritings
  rw [List.length_filterMap_eq_countP, List.countP_eq_length_filter]
  congr 2
  funext event
  exact event.isSome_overwriting?.symm

end Journal

/-! ## The rules that items open -/

namespace Item

def opening? (item : Item) : Option (Text × Nat) := item.opened?.map fun name => (name, item.line)

/-- The names of the rules that are opened, with the lines of their headers. -/
def openings (items : List Item) : List (Text × Nat) := items.filterMap opening?

theorem openings_cons (item : Item) (items : List Item) :
    openings (item :: items) = item.opening?.toList ++ openings items := by
  unfold openings
  rw [List.filterMap_cons]
  cases item.opening? <;> rfl

theorem opening?_of_none {item : Item} (hheader : item.header? = none) : item.opening? = none := by
  cases hmeaning : item.meaning <;>
    simp [header?, hmeaning] at hheader <;>
    simp [opening?, opened?, hmeaning]

theorem map_fst_openings (items : List Item) : (openings items).map Prod.fst = openedNames items := by
  unfold openings openedNames
  rw [List.map_filterMap]
  congr 1
  funext item
  rw [opening?, Option.map_map]
  exact Option.map_id'

theorem pairwise_snd_openings_ofLines (ruleOpen : Bool) (number : Nat) (lines : List Text) :
    ((openings (ofLines ruleOpen number lines)).map Prod.snd).Pairwise (· < ·) := by
  rw [List.pairwise_map]
  apply (pairwise_line_ofLines ruleOpen number lines).filterMap
  intro item other hlt opening hopening opening' hopening'
  obtain ⟨name, _, rfl⟩ := Option.map_eq_some_iff.mp hopening
  obtain ⟨name', _, rfl⟩ := Option.map_eq_some_iff.mp hopening'
  exact hlt

end Item

namespace Extraction.State

theorem closeJournal_of_none {state : State} (hdraft : state.draft? = none) :
    state.closeJournal = [] := by
  simp [closeJournal, hdraft]

theorem filterMap_closeJournal_eq_nil {α : Type} {f : Event → Option α}
    (hf : ∀ name earlier later, f (.overwritingTarget name earlier later) = none)
    (state : State) : state.closeJournal.filterMap f = [] := by
  unfold closeJournal
  split
  next => rfl
  next =>
    split
    next => rfl
    next => simp [hf]

theorem openings_closeJournal (state : State) : state.closeJournal.openings = [] :=
  filterMap_closeJournal_eq_nil (fun _ _ _ => rfl) state

theorem extractedCount?_closeJournal (state : State) :
    state.closeJournal.filterMap Event.extractedCount? = [] :=
  filterMap_closeJournal_eq_nil (fun _ _ _ => rfl) state

theorem overwritings_closeJournal_of_some {state : State} {draft : Target.Draft}
    (hdraft : state.draft? = some draft) :
    state.closeJournal.overwritings =
      ((state.targets.find? (·.name == draft.name)).map fun earlier =>
        (draft.name, earlier.line, draft.line)).toList := by
  unfold closeJournal
  simp only [hdraft]
  cases state.targets.find? (·.name == draft.name) <;> rfl

theorem stepJournal_of_header {item : Item} {header : Header} (state : State)
    (hmeaning : item.meaning = .header header) :
    state.stepJournal item =
      state.closeJournal ++
        if Target.isSpecial header.name then [.ignoringSpecial header.name item.line]
        else [.openingTarget header.name header.dependencyText item.line] := by
  simp [stepJournal, hmeaning]

theorem openings_stepJournal (state : State) (item : Item) :
    (state.stepJournal item).openings = item.opening?.toList := by
  cases hmeaning : item.meaning with
  | header header =>
      rw [stepJournal_of_header state hmeaning, Journal.openings_append, openings_closeJournal]
      cases hspecial : Target.isSpecial header.name <;>
        simp [hspecial, Item.opening?, Item.opened?, hmeaning, Journal.openings, Event.opening?]
  | nothing | assignment a | command text | dropped merged =>
      simp [stepJournal, hmeaning, Item.opening?, Item.opened?, Journal.openings, Event.opening?]

theorem openings_itemsJournal (state : State) (items : List Item) :
    (state.itemsJournal items).openings = Item.openings items := by
  induction items generalizing state with
  | nil => rfl
  | cons item items ih =>
      rw [itemsJournal, Journal.openings_append, openings_stepJournal, ih, Item.openings_cons]

theorem extractedCount?_itemsJournal (state : State) (items : List Item) :
    (state.itemsJournal items).filterMap Event.extractedCount? = [] := by
  induction items generalizing state with
  | nil => rfl
  | cons item items ih =>
      rw [itemsJournal, List.filterMap_append, ih, List.append_nil]
      cases hmeaning : item.meaning with
      | header header =>
          rw [stepJournal_of_header state hmeaning, List.filterMap_append,
            extractedCount?_closeJournal]
          cases hspecial : Target.isSpecial header.name <;> simp [Event.extractedCount?]
      | nothing | assignment a | command text | dropped merged =>
          simp [stepJournal, hmeaning, Event.extractedCount?]

theorem overwritings_stepJournal_of_header {item : Item} {header : Header} (state : State)
    (hmeaning : item.meaning = .header header) :
    (state.stepJournal item).overwritings = state.closeJournal.overwritings := by
  rw [stepJournal_of_header state hmeaning, Journal.overwritings_append]
  cases hspecial : Target.isSpecial header.name <;>
    simp [Journal.overwritings, Event.overwriting?]

theorem overwritings_stepJournal_of_none {item : Item} (state : State)
    (hheader : item.header? = none) : (state.stepJournal item).overwritings = [] := by
  cases hmeaning : item.meaning with
  | header header => simp [Item.header?, hmeaning] at hheader
  | nothing | assignment a | command text | dropped merged =>
      simp [stepJournal, hmeaning, Journal.overwritings, Event.overwriting?]

/-! ## The lines on which a name was last opened -/

/-- The name of the open rule and the line of its header. -/
def opening? (state : State) : Option (Text × Nat) :=
  state.draft?.map fun draft => (draft.name, draft.line)

/-- The line of the finished target of that name, and that of the open rule. -/
def openLines (state : State) (name : Text) : List Nat :=
  ((state.targets.find? (·.name == name)).map Target.line).toList ++
    valuesUnder name state.opening?.toList

theorem openLines_of_none {state : State} (name : Text) (hdraft : state.draft? = none) :
    state.openLines name = ((state.targets.find? (·.name == name)).map Target.line).toList := by
  simp [openLines, opening?, hdraft]

theorem openLines_of_some {state : State} {draft : Target.Draft} (name : Text)
    (hdraft : state.draft? = some draft) :
    state.openLines name =
      ((state.targets.find? (·.name == name)).map Target.line).toList ++
        if draft.name = name then [draft.line] else [] := by
  rw [openLines, opening?, hdraft, Option.map_some, Option.toList_some, valuesUnder_singleton]

/-- A header finishes the open rule and opens its own, if it has one. -/
theorem targets_opening?_step_of_header {item : Item} {header : Header} (state : State)
    (hmeaning : item.meaning = .header header) :
    (state.step item).targets = state.closedTargets ∧
      (state.step item).opening? = item.opening? := by
  cases hspecial : Target.isSpecial header.name with
  | true =>
      rw [step_of_special state hmeaning hspecial]
      simp [closedTargets, opening?, Item.opening?, Item.opened?, hmeaning, hspecial]
  | false =>
      rw [step_of_rule state hmeaning hspecial]
      simp [closedTargets, opening?, Item.opening?, Item.opened?, hmeaning, hspecial,
        Target.Draft.ofHeader]

theorem targets_opening?_step_of_none {item : Item} (state : State)
    (hheader : item.header? = none) :
    (state.step item).targets = state.targets ∧
      (state.step item).opening? = state.opening? := by
  cases hmeaning : item.meaning with
  | header header => simp [Item.header?, hmeaning] at hheader
  | nothing | assignment a | dropped merged => simp [step, opening?, hmeaning]
  | command text =>
      rw [step_of_command state hmeaning]
      cases hdraft : state.draft? <;> simp [opening?, hdraft, Target.Draft.addCommand]

/-- Ending the open rule overwrites the finished target of its name. -/
theorem valuesUnder_overwritings_closeJournal (state : State) (name : Text) :
    valuesUnder name state.closeJournal.overwritings =
      (state.openLines name).consecutivePairs := by
  cases hdraft : state.draft? with
  | none =>
      rw [closeJournal_of_none hdraft, openLines_of_none name hdraft]
      cases state.targets.find? (·.name == name) <;> rfl
  | some draft =>
      rw [overwritings_closeJournal_of_some hdraft, openLines_of_some name hdraft]
      by_cases hname : draft.name = name
      · rw [hname]
        cases state.targets.find? (·.name == name) <;> simp [valuesUnder, List.consecutivePairs]
      · cases state.targets.find? (·.name == draft.name) <;>
          cases state.targets.find? (·.name == name) <;>
            simp [valuesUnder, List.consecutivePairs, hname]

theorem line_find?_closedTargets (state : State) (name : Text) :
    (state.closedTargets.find? (·.name == name)).map Target.line =
      (state.openLines name).getLast? := by
  cases hdraft : state.draft? with
  | none =>
      rw [closedTargets_of_none hdraft, openLines_of_none name hdraft]
      cases state.targets.find? (·.name == name) <;> rfl
  | some draft =>
      rw [closedTargets_of_some hdraft, openLines_of_some name hdraft, Target.find?_putInto]
      by_cases hname : draft.name = name
      · rw [if_pos hname, if_pos (by exact hname), List.getLast?_append]
        rfl
      · rw [if_neg hname, if_neg (by exact hname)]
        cases state.targets.find? (·.name == name) <;> rfl

theorem openLines_step_of_header {item : Item} {header : Header} (state : State) (name : Text)
    (hmeaning : item.meaning = .header header) :
    (state.step item).openLines name =
      (state.openLines name).getLast?.toList ++ valuesUnder name item.opening?.toList := by
  obtain ⟨htargets, hopening⟩ := state.targets_opening?_step_of_header hmeaning
  rw [openLines, htargets, hopening, line_find?_closedTargets]

theorem openLines_step_of_none {item : Item} (state : State) (name : Text)
    (hheader : item.header? = none) :
    (state.step item).openLines name = state.openLines name := by
  obtain ⟨htargets, hopening⟩ := state.targets_opening?_step_of_none hheader
  rw [openLines, htargets, hopening, openLines]

/-- A run reports that each rule of a name overwrites the one before it, the last
of them when it is ended. -/
theorem valuesUnder_overwritings_itemsJournal (state : State) (items : List Item) (name : Text) :
    valuesUnder name ((state.itemsJournal items).overwritings ++
        (items.foldl step state).closeJournal.overwritings) =
      (state.openLines name ++ valuesUnder name (Item.openings items)).consecutivePairs := by
  induction items generalizing state with
  | nil =>
      rw [List.foldl_nil, itemsJournal]
      simpa [Item.openings, Journal.overwritings] using
        valuesUnder_overwritings_closeJournal state name
  | cons item items ih =>
      rw [itemsJournal, List.foldl_cons, Journal.overwritings_append, List.append_assoc,
        valuesUnder_append, ih, Item.openings_cons, valuesUnder_append]
      cases hheader : item.header? with
      | none =>
          rw [overwritings_stepJournal_of_none state hheader, openLines_step_of_none state name
            hheader, Item.opening?_of_none hheader]
          rfl
      | some header =>
          have hmeaning := Item.meaning_of_header? hheader
          rw [overwritings_stepJournal_of_header state hmeaning,
            valuesUnder_overwritings_closeJournal, openLines_step_of_header state name hmeaning,
            List.append_assoc, ← consecutivePairs_append]

theorem getLast?_openLines_foldl (state : State) (items : List Item) (name : Text) :
    ((items.foldl step state).openLines name).getLast? =
      (state.openLines name ++ valuesUnder name (Item.openings items)).getLast? := by
  induction items generalizing state with
  | nil => simp [Item.openings]
  | cons item items ih =>
      rw [List.foldl_cons, ih, Item.openings_cons, valuesUnder_append]
      cases hheader : item.header? with
      | none =>
          rw [openLines_step_of_none state name hheader, Item.opening?_of_none hheader]
          rfl
      | some header =>
          rw [openLines_step_of_header state name (Item.meaning_of_header? hheader),
            List.append_assoc, getLast?_toList_append]

/-! ## Counting -/

/-- How many rules the state holds, finished or open. -/
def ruleCount (state : State) : Nat := state.targets.length + state.opening?.toList.length

theorem length_closedTargets_add (state : State) :
    state.closedTargets.length + state.closeJournal.overwritings.length = state.ruleCount := by
  unfold ruleCount opening?
  cases hdraft : state.draft? with
  | none =>
      rw [closedTargets_of_none hdraft, closeJournal_of_none hdraft]
      rfl
  | some draft =>
      rw [closedTargets_of_some hdraft, overwritings_closeJournal_of_some hdraft,
        Option.length_toList, Option.isSome_map, ← Option.length_toList]
      exact draft.toTarget.length_putInto_add state.targets

theorem ruleCount_step_of_header {item : Item} {header : Header} (state : State)
    (hmeaning : item.meaning = .header header) :
    (state.step item).ruleCount =
      state.closedTargets.length + item.opening?.toList.length := by
  obtain ⟨htargets, hopening⟩ := state.targets_opening?_step_of_header hmeaning
  rw [ruleCount, htargets, hopening]

theorem ruleCount_step_of_none {item : Item} (state : State) (hheader : item.header? = none) :
    (state.step item).ruleCount = state.ruleCount := by
  obtain ⟨htargets, hopening⟩ := state.targets_opening?_step_of_none hheader
  rw [ruleCount, htargets, hopening, ruleCount]

theorem ruleCount_foldl_add (state : State) (items : List Item) :
    (items.foldl step state).ruleCount + (state.itemsJournal items).overwritings.length =
      state.ruleCount + (Item.openings items).length := by
  induction items generalizing state with
  | nil => rfl
  | cons item items ih =>
      rw [List.foldl_cons, itemsJournal, Journal.overwritings_append, List.length_append,
        Item.openings_cons, List.length_append]
      have hrest := ih (state.step item)
      cases hheader : item.header? with
      | none =>
          rw [overwritings_stepJournal_of_none state hheader, Item.opening?_of_none hheader]
          rw [ruleCount_step_of_none state hheader] at hrest
          simpa using hrest
      | some header =>
          have hmeaning := Item.meaning_of_header? hheader
          have hclosed := state.length_closedTargets_add
          rw [ruleCount_step_of_header state hmeaning] at hrest
          rw [overwritings_stepJournal_of_header state hmeaning]
          omega

end Extraction.State

/-! ## The journal of an extraction -/

namespace Extraction

/-- What the journal of an extraction says about the targets. -/
structure JournalTells (lines : List Text) : Prop where
  increasing : ((targetsJournal lines).openings.map Prod.snd).Pairwise (· < ·)
  overwritings : ∀ name,
    valuesUnder name (targetsJournal lines).overwritings =
      (valuesUnder name (targetsJournal lines).openings).consecutivePairs
  overwritingCount : ∀ name,
    (valuesUnder name (targetsJournal lines).overwritings).length =
      (valuesUnder name (targetsJournal lines).openings).length - 1
  line : ∀ name,
    ((targetsOf lines).find? (·.name == name)).map Target.line =
      (valuesUnder name (targetsJournal lines).openings).getLast?
  names :
    (targetsOf lines).map Target.name = ((targetsJournal lines).openings.map Prod.fst).eraseDups
  extracted :
    (targetsJournal lines).filterMap Event.extractedCount? = [(targetsOf lines).length]
  balance :
    (targetsOf lines).length + (targetsJournal lines).warnings.length =
      (targetsJournal lines).openings.length

theorem openings_targetsJournal (lines : List Text) :
    (targetsJournal lines).openings = Item.openings (Item.ofLines false 1 lines) := by
  rw [targetsJournal, Journal.openings_append, Journal.openings_append,
    State.openings_closeJournal, State.openings_itemsJournal]
  simp [Journal.openings, Event.opening?, State.ruleOpen, State.initial]

theorem overwritings_targetsJournal (lines : List Text) :
    (targetsJournal lines).overwritings =
      (State.initial.itemsJournal (Item.ofLines false 1 lines)).overwritings ++
        (State.below (Item.ofLines false 1 lines)).closeJournal.overwritings := by
  rw [targetsJournal, Journal.overwritings_append, Journal.overwritings_append]
  exact List.append_nil _

theorem journalTells (lines : List Text) : JournalTells lines := by
  have hoverwritings : ∀ name, valuesUnder name (targetsJournal lines).overwritings =
      (valuesUnder name (targetsJournal lines).openings).consecutivePairs := by
    intro name
    rw [overwritings_targetsJournal, openings_targetsJournal]
    exact State.valuesUnder_overwritings_itemsJournal State.initial _ name
  constructor
  · rw [openings_targetsJournal]
    exact Item.pairwise_snd_openings_ofLines false 1 lines
  · exact hoverwritings
  · intro name
    rw [hoverwritings, List.length_zip, List.length_tail]
    omega
  · intro name
    rw [targetsOf_eq_closedTargets, State.line_find?_closedTargets, openings_targetsJournal]
    exact State.getLast?_openLines_foldl State.initial _ name
  · rw [map_name_targetsOf, addUnseen_eq_eraseDups, openings_targetsJournal,
      Item.map_fst_openings]
  · rw [targetsJournal, List.filterMap_append, List.filterMap_append,
      State.extractedCount?_itemsJournal, State.extractedCount?_closeJournal]
    rfl
  · rw [Journal.length_warnings, overwritings_targetsJournal, List.length_append,
      openings_targetsJournal, targetsOf_eq_closedTargets]
    have hrun := State.ruleCount_foldl_add State.initial (Item.ofLines false 1 lines)
    have hclosed := (State.below (Item.ofLines false 1 lines)).length_closedTargets_add
    have hinitial : State.initial.ruleCount = 0 := rfl
    have hbelow : State.initial.readLines 1 lines = State.below (Item.ofLines false 1 lines) := rfl
    rw [← State.below] at hrun
    rw [hbelow]
    omega

end Extraction

end MakeOutline
