import MakeOutline.Extraction.State
import MakeOutline.Proofs.Items
import MakeOutline.Proofs.NamedTargets

/-!
# Steps and runs of the extraction

A state is looked at as if its open rule ended: its closed targets are what would
be extracted if no line were left.  Each item changes them in one way, and so a
run over the items of some lines does.  Lines that are complete can be read on
their own before the lines below them.
-/

namespace MakeOutline.Extraction

namespace State

/-- The targets that there are when the open rule ends. -/
def closedTargets (state : State) : List Target := state.closeRule.targets

theorem closedTargets_of_none {state : State} (hdraft : state.draft? = none) :
    state.closedTargets = state.targets := by
  simp [closedTargets, closeRule, hdraft]

theorem closedTargets_of_some {state : State} {draft : Target.Draft}
    (hdraft : state.draft? = some draft) :
    state.closedTargets = draft.toTarget.putInto state.targets := by
  simp [closedTargets, closeRule, hdraft]

@[simp] theorem closeRule_draft? (state : State) : state.closeRule.draft? = none := by
  cases hdraft : state.draft? <;> simp [closeRule, hdraft]

@[simp] theorem closeRule_table (state : State) : state.closeRule.table = state.table := by
  cases hdraft : state.draft? <;> simp [closeRule, hdraft]

/-! ## What a step does -/

theorem step_of_nothing {item : Item} (state : State) (hmeaning : item.meaning = .nothing) :
    state.step item = state := by
  simp [step, hmeaning]

theorem step_of_assignment {item : Item} {a : Assignment} (state : State)
    (hmeaning : item.meaning = .assignment a) :
    state.step item = { state with table := state.table.assign a.name a.value } := by
  simp [step, hmeaning]

theorem step_of_special {item : Item} {header : Header} (state : State)
    (hmeaning : item.meaning = .header header)
    (hspecial : Target.isSpecial header.name = true) :
    state.step item = state.closeRule := by
  simp [step, startRule, hmeaning, hspecial]

theorem step_of_rule {item : Item} {header : Header} (state : State)
    (hmeaning : item.meaning = .header header)
    (hspecial : Target.isSpecial header.name = false) :
    state.step item =
      { state.closeRule with draft? := some (.ofHeader header item.line) } := by
  simp [step, startRule, hmeaning, hspecial]

theorem step_of_command {item : Item} {text : Text} (state : State)
    (hmeaning : item.meaning = .command text) :
    state.step item =
      { state with draft? := state.draft?.map (·.addCommand state.table text) } := by
  simp [step, hmeaning]

theorem step_of_dropped {item : Item} {merged : Text} (state : State)
    (hmeaning : item.meaning = .dropped merged) : state.step item = state := by
  simp [step, hmeaning]

theorem step_table {item : Item} (state : State) (hitem : item.assignment? = none) :
    (state.step item).table = state.table := by
  cases hmeaning : item.meaning with
  | assignment a => simp [Item.assignment?, hmeaning] at hitem
  | header header =>
      simp only [step, hmeaning, startRule]
      split <;> simp
  | nothing | command text | dropped merged => simp [step, hmeaning]

/-! ## Whether a rule is open -/

theorem ruleOpen_step (state : State) (item : Item) :
    (state.step item).ruleOpen = item.meaning.ruleOpenAfter state.ruleOpen := by
  cases hmeaning : item.meaning with
  | nothing => rw [step_of_nothing state hmeaning]; rfl
  | assignment a => rw [step_of_assignment state hmeaning]; rfl
  | header header =>
      cases hspecial : Target.isSpecial header.name with
      | true =>
          rw [step_of_special state hmeaning hspecial]
          simp [ruleOpen, Meaning.ruleOpenAfter, hspecial]
      | false =>
          rw [step_of_rule state hmeaning hspecial]
          simp [ruleOpen, Meaning.ruleOpenAfter, hspecial]
  | command text =>
      rw [step_of_command state hmeaning]
      simp [ruleOpen, Meaning.ruleOpenAfter]
  | dropped merged => rw [step_of_dropped state hmeaning]; rfl

theorem ruleOpen_foldl_step (state : State) (items : List Item) :
    (items.foldl step state).ruleOpen = Item.ruleOpenBelow state.ruleOpen items := by
  induction items generalizing state with
  | nil => rfl
  | cons item items ih =>
      rw [List.foldl_cons, ih, ruleOpen_step, Item.ruleOpenBelow_cons]

/-- The state that the items leave when no line was read above them. -/
def below (above : List Item) : State := above.foldl step initial

theorem below_append_singleton (above : List Item) (item : Item) :
    below (above ++ [item]) = (below above).step item := by
  rw [below, List.foldl_append]
  rfl

/-- The items of some lines leave what these lines leave when they stand alone. -/
theorem below_eq_readLines {lines : List Text} {above rest : List Item}
    (hcut : Item.ofLines false 1 lines = above ++ rest) :
    below above = initial.readLines 1 (above.flatMap Item.lines) := by
  have habove := Item.ofLines_flatMap_of_append false 1 lines above rest hcut
  conv_lhs => rw [← habove]
  rfl

theorem readLines_append (state : State) (number : Nat) (first second : List Text)
    (hcomplete : Continuation.Complete first) :
    state.readLines number (first ++ second) =
      (state.readLines number first).readLines (number + first.length) second := by
  unfold readLines
  rw [Item.ofLines_append _ _ _ _ hcomplete, List.foldl_append, ruleOpen_foldl_step]

/-! ## The open rule and the closed targets -/

theorem step_draft?_targets {item : Item} (state : State) (hheader : item.header? = none)
    (hcommand : item.command? = none) :
    (state.step item).draft? = state.draft? ∧ (state.step item).targets = state.targets := by
  cases hmeaning : item.meaning <;>
    simp [Item.header?, Item.command?, hmeaning] at hheader hcommand <;>
    simp [step, hmeaning]

theorem closedTargets_step_of_none {item : Item} (state : State) (hheader : item.header? = none)
    (hcommand : item.command? = none) :
    (state.step item).closedTargets = state.closedTargets := by
  obtain ⟨hdraft, htargets⟩ := step_draft?_targets state hheader hcommand
  cases hstate : state.draft? with
  | none =>
      rw [hstate] at hdraft
      rw [closedTargets_of_none hdraft, closedTargets_of_none hstate, htargets]
  | some draft =>
      rw [hstate] at hdraft
      rw [closedTargets_of_some hdraft, closedTargets_of_some hstate, htargets]

/-- An item at most ends the open rule, opens another one or adds a command to it. -/
theorem step_cases (state : State) (item : Item) :
    (item.opened? = none ∧ (state.step item).closedTargets = state.closedTargets ∧
        ∀ draft, (state.step item).draft? = some draft → state.draft? = some draft) ∨
      (∃ header, item.meaning = .header header ∧ item.opened? = some header.name ∧
        state.step item =
          { state.closeRule with draft? := some (.ofHeader header item.line) }) ∨
      ∃ text draft, item.meaning = .command text ∧ item.opened? = none ∧
        state.draft? = some draft ∧
        state.step item = { state with draft? := some (draft.addCommand state.table text) } := by
  cases hmeaning : item.meaning with
  | header header =>
      cases hspecial : Target.isSpecial header.name with
      | true =>
          refine .inl ⟨by simp [Item.opened?, hmeaning, hspecial], ?_, ?_⟩
          · rw [step_of_special state hmeaning hspecial,
              closedTargets_of_none state.closeRule_draft?]
            rfl
          · intro draft hdraft
            rw [step_of_special state hmeaning hspecial, closeRule_draft?] at hdraft
            contradiction
      | false =>
          refine .inr (.inl ⟨header, rfl, by simp [Item.opened?, hmeaning, hspecial], ?_⟩)
          exact step_of_rule state hmeaning hspecial
  | command text =>
      have hopened : item.opened? = none := by simp [Item.opened?, hmeaning]
      have hstep := step_of_command state hmeaning
      cases hdraft : state.draft? with
      | none =>
          rw [hdraft] at hstep
          refine .inl ⟨hopened, ?_, ?_⟩
          · rw [hstep, closedTargets_of_none rfl, closedTargets_of_none hdraft]
          · intro draft hnext
            rw [hstep] at hnext
            contradiction
      | some draft =>
          rw [hdraft] at hstep
          exact .inr (.inr ⟨text, draft, rfl, hopened, rfl, hstep⟩)
  | nothing | assignment a | dropped merged =>
      have hheader : item.header? = none := by simp [Item.header?, hmeaning]
      have hcommand : item.command? = none := by simp [Item.command?, hmeaning]
      refine .inl ⟨by simp [Item.opened?, hmeaning], ?_, ?_⟩
      · exact closedTargets_step_of_none state hheader hcommand
      · intro draft hdraft
        rw [(step_draft?_targets state hheader hcommand).1] at hdraft
        exact hdraft

theorem map_name_closedTargets_step (state : State) (item : Item) :
    (state.step item).closedTargets.map Target.name =
      addUnseen (state.closedTargets.map Target.name) item.opened?.toList := by
  rcases state.step_cases item with
    ⟨hopened, hclosed, _⟩ | ⟨header, _, hopened, hstep⟩ |
      ⟨text, draft, _, hopened, hdraft, hstep⟩
  · rw [hopened, hclosed]
    rfl
  · rw [hopened, hstep, closedTargets_of_some rfl, Target.map_name_putInto]
    rfl
  · rw [hopened, hstep, closedTargets_of_some rfl, closedTargets_of_some hdraft,
      Target.map_name_putInto, Target.map_name_putInto]
    rfl

/-- A run puts the names that it opens behind those that are there. -/
theorem map_name_closedTargets_foldl (state : State) (items : List Item) :
    (items.foldl step state).closedTargets.map Target.name =
      addUnseen (state.closedTargets.map Target.name) (Item.openedNames items) := by
  induction items generalizing state with
  | nil => rfl
  | cons item items ih =>
      rw [List.foldl_cons, ih, map_name_closedTargets_step, ← addUnseen_append,
        Item.openedNames_cons]

/-- Filtering out blank names takes nothing away, because no special name opens a
rule and blank names are special. -/
theorem result_foldl_initial (items : List Item) :
    (items.foldl step initial).result = (items.foldl step initial).closedTargets := by
  refine List.filter_eq_self.mpr ?_
  intro target hmem
  have hname : target.name ∈ Item.openedNames items := by
    have hall := List.mem_map_of_mem (f := Target.name) hmem
    rw [← closedTargets, map_name_closedTargets_foldl, mem_addUnseen] at hall
    simpa [closedTargets, closeRule, initial] using hall
  simpa using Target.trim_ne_nil_of_isSpecial (Item.isSpecial_of_mem_openedNames hname)

end State

theorem assignments_append (first second : List Text) :
    assignments (first ++ second) = assignments first ++ assignments second :=
  List.filterMap_append

theorem targetsOf_eq_closedTargets (lines : List Text) :
    targetsOf lines = (State.initial.readLines 1 lines).closedTargets :=
  State.result_foldl_initial _

theorem map_name_targetsOf (lines : List Text) :
    (targetsOf lines).map Target.name =
      addUnseen [] (Item.openedNames (Item.ofLines false 1 lines)) := by
  rw [targetsOf_eq_closedTargets]
  exact State.map_name_closedTargets_foldl State.initial _

theorem nodup_name_targetsOf (lines : List Text) :
    ((targetsOf lines).map Target.name).Nodup := by
  rw [map_name_targetsOf]
  exact nodup_addUnseen _ List.nodup_nil

end MakeOutline.Extraction
