import MakeOutline.Proofs.Layout
import MakeOutline.Proofs.Runs

/-!
# The outline that a layout gives

What is extracted can be read off the layout of a makefile.  Each header of a rule
defines a target from the commands down to the next header, every one of them
expanded with the assignments above it.  A name that is defined more than once
stands where it is first defined and means what it is last defined to mean.
-/

namespace MakeOutline

namespace Layout

def table (items : List Item) : Variables :=
  .ofList (items.filterMap fun item => item.assignment?.map fun a => (a.name, a.value))

/-- The commands down to the next header, each with what is assigned above it. -/
def commandsBelow (above below : List Item) : List (Variables × Text) :=
  ((places above below).takeWhile (·.item.header?.isNone)).filterMap fun place =>
    place.item.command?.map fun text => (table place.above, text)

end Layout

namespace Place

def recipe (place : Place) : List (Variables × Text) :=
  Layout.commandsBelow (place.above ++ [place.item]) place.below

/-- The target that a header defines, unless it is the header of a directive. -/
def definition? (place : Place) : Option Target :=
  match place.item.header? with
  | none => none
  | some header =>
    if Target.isSpecial header.name then none
    else some {
      name := header.name
      dependencies := header.dependencies
      commands := Text.joinedBy ['\n'] (place.recipe.map fun (table, text) => table.expand text)
      required := (place.recipe.flatMap fun (_, text) => text.referencedNames).eraseDups
      line := place.item.line }

end Place

namespace Layout

def definitionsBelow (above below : List Item) : List Target :=
  (places above below).filterMap Place.definition?

/-- The defined names in the order of first definition, each with its last one. -/
def targets (items : List Item) : List Target :=
  ((definitionsBelow [] items).map Target.name).eraseDups.filterMap fun name =>
    (definitionsBelow [] items).reverse.find? (·.name == name)

/-! ## Definitions of a name in a row -/

theorem map_name_foldl_putInto (definitions targets : List Target) :
    (definitions.foldl (fun targets target => target.putInto targets) targets).map
        Target.name =
      addUnseen (targets.map Target.name) (definitions.map Target.name) := by
  induction definitions generalizing targets with
  | nil => rfl
  | cons target definitions ih =>
      rw [List.foldl_cons, ih, Target.map_name_putInto, ← addUnseen_append]
      rfl

theorem find?_foldl_putInto (definitions targets : List Target) (name : Text) :
    (definitions.foldl (fun targets target => target.putInto targets) targets).find?
        (·.name == name) =
      (definitions.reverse.find? (·.name == name)).or (targets.find? (·.name == name)) := by
  induction definitions generalizing targets with
  | nil => rfl
  | cons target definitions ih =>
      rw [List.foldl_cons, ih, Target.find?_putInto, List.reverse_cons, List.find?_append,
        Option.or_assoc]
      by_cases hname : target.name = name <;> simp [hname]

theorem foldl_putInto_nil (definitions : List Target) :
    definitions.foldl (fun targets target => target.putInto targets) [] =
      (definitions.map Target.name).eraseDups.filterMap fun name =>
        definitions.reverse.find? (·.name == name) := by
  have hnames := map_name_foldl_putInto definitions []
  have hnodup := nodup_addUnseen (definitions.map Target.name) List.nodup_nil
  rw [List.map_nil] at hnames
  rw [← hnames] at hnodup
  rw [addUnseen_eq_eraseDups] at hnames
  rw [← Target.filterMap_find?_map_name hnodup, hnames]
  apply List.filterMap_congr
  intro name _
  rw [find?_foldl_putInto]
  simp

/-! ## Reading on from one item -/

theorem table_append_of_assignment {item : Item} {a : Assignment} (above : List Item)
    (hmeaning : item.meaning = .assignment a) :
    table (above ++ [item]) = (table above).assign a.name a.value := by
  simp [table, Item.assignment?, hmeaning, Variables.ofList, List.foldl_append]

theorem table_append_of_none {item : Item} (above : List Item)
    (hitem : item.assignment? = none) : table (above ++ [item]) = table above := by
  simp [table, hitem]

theorem table_step {state : Extraction.State} {above : List Item}
    (htable : state.table = table above) (item : Item) :
    (state.step item).table = table (above ++ [item]) := by
  cases hitem : item.assignment? with
  | none => rw [state.step_table hitem, table_append_of_none above hitem, htable]
  | some a =>
      have hmeaning := Item.meaning_of_assignment? hitem
      rw [Extraction.State.step_of_assignment state hmeaning,
        table_append_of_assignment above hmeaning, htable]

theorem table_below (above : List Item) : (Extraction.State.below above).table = table above := by
  induction above using List.reverseRecOn with
  | nil => rfl
  | append_singleton above item ih =>
      rw [Extraction.State.below_append_singleton]
      exact table_step ih item

theorem commandsBelow_of_header {item : Item} {header : Header} (above below : List Item)
    (hmeaning : item.meaning = .header header) :
    commandsBelow above (item :: below) = [] := by
  simp [commandsBelow, places_cons, Item.header?, hmeaning]

theorem commandsBelow_of_command {item : Item} {text : Text} (above below : List Item)
    (hmeaning : item.meaning = .command text) :
    commandsBelow above (item :: below) =
      (table above, text) :: commandsBelow (above ++ [item]) below := by
  simp [commandsBelow, places_cons, Item.header?, Item.command?, hmeaning]

theorem commandsBelow_of_none {item : Item} (above below : List Item)
    (hheader : item.header? = none) (hcommand : item.command? = none) :
    commandsBelow above (item :: below) = commandsBelow (above ++ [item]) below := by
  simp [commandsBelow, places_cons, hheader, hcommand]

theorem definitionsBelow_cons (above below : List Item) (item : Item) :
    definitionsBelow above (item :: below) =
      (Place.definition? ⟨above, item, below⟩).toList ++
        definitionsBelow (above ++ [item]) below := by
  unfold definitionsBelow
  rw [places_cons, List.filterMap_cons]
  cases Place.definition? ⟨above, item, below⟩ <;> rfl

end Layout

/-! ## Drafts with the commands below them -/

namespace Target.Draft

def addCommands (draft : Draft) (commands : List (Variables × Text)) : Draft :=
  commands.foldl (fun draft (table, text) => draft.addCommand table text) draft

theorem addCommands_eq (draft : Draft) (commands : List (Variables × Text)) :
    draft.addCommands commands =
      { draft with
        required := addUnseen draft.required
          (commands.flatMap fun (_, text) => text.referencedNames)
        recipe := draft.recipe ++ commands.map fun (table, text) => table.expand text } := by
  induction commands generalizing draft with
  | nil => simp [addCommands]
  | cons command commands ih =>
      rw [addCommands, List.foldl_cons]
      exact (ih _).trans (by simp [addCommand, addUnseen_append])

end Target.Draft

/-- A target is defined by the header of a rule and the commands below it. -/
theorem Place.exists_header_of_definition? {place : Place} {target : Target}
    (hdefinition : place.definition? = some target) :
    ∃ header, place.item.meaning = .header header ∧ Target.isSpecial header.name = false ∧
      target = {
        name := header.name
        dependencies := header.dependencies
        commands :=
          Text.joinedBy ['\n'] (place.recipe.map fun (table, text) => table.expand text)
        required := (place.recipe.flatMap fun (_, text) => text.referencedNames).eraseDups
        line := place.item.line } := by
  unfold definition? at hdefinition
  split at hdefinition
  next => contradiction
  next header hheader =>
    rw [Option.ite_none_left_eq_some, Option.some.injEq] at hdefinition
    exact ⟨header, Item.meaning_of_header? hheader, by simpa using hdefinition.1,
      hdefinition.2.symm⟩

namespace Layout

theorem definition?_of_rule {place : Place} {header : Header}
    (hmeaning : place.item.meaning = .header header)
    (hspecial : Target.isSpecial header.name = false) :
    place.definition? =
      some ((Target.Draft.ofHeader header place.item.line).addCommands place.recipe).toTarget := by
  rw [Target.Draft.addCommands_eq]
  simp [Place.definition?, Item.header?, hmeaning, hspecial, Target.Draft.ofHeader,
    Target.Draft.toTarget, addUnseen_eq_eraseDups]

/-- The targets that a state ends with when its rule goes on and no other one is
opened below. -/
def pendingTargets (state : Extraction.State) (above below : List Item) : List Target :=
  match state.draft? with
  | none => state.targets
  | some draft => (draft.addCommands (commandsBelow above below)).toTarget.putInto state.targets

theorem pendingTargets_step_of_none {state : Extraction.State} {item : Item}
    (above below : List Item) (hheader : item.header? = none)
    (hcommand : item.command? = none) :
    pendingTargets (state.step item) (above ++ [item]) below =
      (Place.definition? ⟨above, item, below⟩).toList.foldl
        (fun targets target => target.putInto targets)
        (pendingTargets state above (item :: below)) := by
  obtain ⟨hdraft, htargets⟩ := state.step_draft?_targets hheader hcommand
  have hdefinition : Place.definition? ⟨above, item, below⟩ = none := by
    simp [Place.definition?, hheader]
  unfold pendingTargets
  rw [hdraft, htargets, hdefinition, commandsBelow_of_none above below hheader hcommand]
  rfl

theorem pendingTargets_of_header {item : Item} {header : Header} (state : Extraction.State)
    (above below : List Item) (hmeaning : item.meaning = .header header) :
    pendingTargets state above (item :: below) = state.closedTargets := by
  unfold pendingTargets
  rw [commandsBelow_of_header above below hmeaning]
  cases hdraft : state.draft? with
  | none => exact (Extraction.State.closedTargets_of_none hdraft).symm
  | some draft => exact (Extraction.State.closedTargets_of_some hdraft).symm

/-- One item changes what is pending by the target that it defines. -/
theorem pendingTargets_step {state : Extraction.State} {above : List Item}
    (htable : state.table = table above) (item : Item) (below : List Item) :
    pendingTargets (state.step item) (above ++ [item]) below =
      (Place.definition? ⟨above, item, below⟩).toList.foldl
        (fun targets target => target.putInto targets)
        (pendingTargets state above (item :: below)) := by
  cases hmeaning : item.meaning with
  | header header =>
      rw [pendingTargets_of_header state above below hmeaning]
      cases hspecial : Target.isSpecial header.name with
      | true =>
          rw [Extraction.State.step_of_special state hmeaning hspecial]
          simp [pendingTargets, Place.definition?, Item.header?, hmeaning, hspecial,
            Extraction.State.closedTargets]
      | false =>
          rw [Extraction.State.step_of_rule state hmeaning hspecial,
            definition?_of_rule hmeaning hspecial]
          rfl
  | command text =>
      rw [Extraction.State.step_of_command state hmeaning]
      unfold pendingTargets
      rw [commandsBelow_of_command above below hmeaning, htable]
      cases hdraft : state.draft? <;>
        simp [Place.definition?, Item.header?, hmeaning, Target.Draft.addCommands]
  | nothing | assignment a | dropped merged =>
      apply pendingTargets_step_of_none
      · simp [Item.header?, hmeaning]
      · simp [Item.command?, hmeaning]

/-- A run from any state ends with what is pending and what is defined below. -/
theorem closedTargets_foldl_step {state : Extraction.State} {above : List Item}
    (htable : state.table = table above) (below : List Item) :
    (below.foldl Extraction.State.step state).closedTargets =
      (definitionsBelow above below).foldl (fun targets target => target.putInto targets)
        (pendingTargets state above below) := by
  induction below generalizing state above with
  | nil =>
      cases hdraft : state.draft? with
      | none => simp [pendingTargets, definitionsBelow, places, hdraft,
          Extraction.State.closedTargets_of_none]
      | some draft =>
          rw [List.foldl_nil, Extraction.State.closedTargets_of_some hdraft]
          simp [pendingTargets, definitionsBelow, places, hdraft, commandsBelow,
            Target.Draft.addCommands]
  | cons item below ih =>
      rw [List.foldl_cons, ih (table_step htable item), pendingTargets_step htable,
        definitionsBelow_cons, List.foldl_append]

theorem targetsOf_eq_targets (lines : List Text) :
    Extraction.targetsOf lines = targets (Item.ofLines false 1 lines) := by
  have htable : Extraction.State.initial.table = table [] := rfl
  have hrun := closedTargets_foldl_step htable (Item.ofLines false 1 lines)
  rw [Extraction.targetsOf_eq_closedTargets]
  exact hrun.trans (foldl_putInto_nil _)

theorem exists_place_of_mem_targetsOf {lines : List Text} {target : Target}
    (hmem : target ∈ Extraction.targetsOf lines) :
    ∃ place ∈ places [] (Item.ofLines false 1 lines), place.definition? = some target := by
  rw [targetsOf_eq_targets, targets, List.mem_filterMap] at hmem
  obtain ⟨name, _, hfind⟩ := hmem
  have hdefined := List.mem_reverse.mp (List.mem_of_find?_eq_some hfind)
  exact List.mem_filterMap.mp hdefined

end Layout

/-- Every list of lines has one layout, and the targets are those that it defines. -/
theorem exists_layout_targetsOf_eq (lines : List Text) :
    ∃ items, IsLayout lines items ∧ (∀ other, IsLayout lines other → other = items) ∧
      Extraction.targetsOf lines = Layout.targets items := by
  refine ⟨Item.ofLines false 1 lines, isLayout_ofLines lines, ?_, ?_⟩
  · intro other hother
    exact hother.eq_ofLines
  · exact Layout.targetsOf_eq_targets lines

end MakeOutline
