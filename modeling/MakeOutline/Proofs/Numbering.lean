import MakeOutline.Proofs.Runs

/-!
# Renumbering

The extraction carries line numbers along and never looks at them.  So changing
the numbers of the items changes the numbers of the targets in the same way, and
what is read further down is the same but for the numbers below the lines that
are there already.
-/

namespace MakeOutline

namespace Target

def renumber (f : Nat → Nat) (target : Target) : Target := { target with line := f target.line }

def Draft.renumber (f : Nat → Nat) (draft : Draft) : Draft :=
  { draft with line := f draft.line }

theorem putInto_map_renumber (f : Nat → Nat) (target : Target) (targets : List Target) :
    (target.renumber f).putInto (targets.map (renumber f)) =
      (target.putInto targets).map (renumber f) :=
  putInto_map (f := renumber f) (fun _ => rfl) target targets

end Target

/-- The number that a line has when `shift` lines are put in below line `bound`. -/
def numberBelow (bound shift number : Nat) : Nat :=
  if number ≤ bound then number else number + shift

theorem numberBelow_of_le {bound number : Nat} (shift : Nat) (hle : number ≤ bound) :
    numberBelow bound shift number = number :=
  if_pos hle

theorem numberBelow_of_lt {bound number : Nat} (shift : Nat) (hlt : bound < number) :
    numberBelow bound shift number = number + shift :=
  if_neg (Nat.not_le.mpr hlt)

namespace Extraction.State

def renumber (f : Nat → Nat) (state : State) : State :=
  { state with
    draft? := state.draft?.map (Target.Draft.renumber f)
    targets := state.targets.map (Target.renumber f) }

theorem closeRule_renumber (f : Nat → Nat) (state : State) :
    (state.renumber f).closeRule = state.closeRule.renumber f := by
  cases hdraft : state.draft? with
  | none => simp [closeRule, renumber, hdraft]
  | some draft =>
      have hput : (draft.renumber f).toTarget.putInto (state.targets.map (Target.renumber f)) =
          (draft.toTarget.putInto state.targets).map (Target.renumber f) :=
        Target.putInto_map_renumber f draft.toTarget state.targets
      simpa [closeRule, renumber, hdraft] using hput

theorem closedTargets_renumber (f : Nat → Nat) (state : State) :
    (state.renumber f).closedTargets = state.closedTargets.map (Target.renumber f) := by
  unfold closedTargets
  rw [closeRule_renumber]
  rfl

theorem step_renumber (f : Nat → Nat) (state : State) (item : Item) :
    (state.renumber f).step (item.renumber f) = (state.step item).renumber f := by
  obtain ⟨number, lines, meaning⟩ := item
  cases meaning with
  | nothing => rfl
  | assignment a => rfl
  | dropped merged => rfl
  | command text =>
      cases hdraft : state.draft? with
      | none => simp [step, renumber, Item.renumber, hdraft]
      | some draft =>
          simp [step, renumber, Item.renumber, hdraft, Target.Draft.renumber,
            Target.Draft.addCommand]
  | header header =>
      simp only [step, Item.renumber, startRule, closeRule_renumber]
      split
      · rfl
      · rfl

theorem foldl_step_renumber (f : Nat → Nat) (state : State) (items : List Item) :
    (items.map (Item.renumber f)).foldl step (state.renumber f) =
      (items.foldl step state).renumber f := by
  induction items generalizing state with
  | nil => rfl
  | cons item items ih => rw [List.map_cons, List.foldl_cons, step_renumber, ih, List.foldl_cons]

/-! ## States with no number above a bound -/

structure NumberedUpTo (bound : Nat) (state : State) : Prop where
  draft : ∀ draft, state.draft? = some draft → draft.line ≤ bound
  targets : ∀ target ∈ state.targets, target.line ≤ bound

theorem NumberedUpTo.mono {bound larger : Nat} {state : State}
    (hnumbered : NumberedUpTo bound state) (hle : bound ≤ larger) :
    NumberedUpTo larger state :=
  ⟨fun draft hdraft => (hnumbered.draft draft hdraft).trans hle,
    fun target hmem => (hnumbered.targets target hmem).trans hle⟩

theorem NumberedUpTo.closeRule {bound : Nat} {state : State}
    (hnumbered : NumberedUpTo bound state) : NumberedUpTo bound state.closeRule := by
  constructor
  · intro draft hdraft
    rw [closeRule_draft?] at hdraft
    contradiction
  · intro target hmem
    cases hdraft : state.draft? with
    | none =>
        simp only [State.closeRule, hdraft] at hmem
        exact hnumbered.targets target hmem
    | some draft =>
        simp only [State.closeRule, hdraft] at hmem
        rcases Target.mem_of_mem_putInto hmem with rfl | hold
        · exact hnumbered.draft draft hdraft
        · exact hnumbered.targets target hold

theorem NumberedUpTo.step {bound : Nat} {state : State} {item : Item}
    (hnumbered : NumberedUpTo bound state) (hline : item.line ≤ bound) :
    NumberedUpTo bound (state.step item) := by
  cases hmeaning : item.meaning with
  | nothing =>
      rw [step_of_nothing state hmeaning]
      exact hnumbered
  | assignment a =>
      rw [step_of_assignment state hmeaning]
      exact ⟨hnumbered.draft, hnumbered.targets⟩
  | dropped merged =>
      rw [step_of_dropped state hmeaning]
      exact hnumbered
  | header header =>
      cases hspecial : Target.isSpecial header.name with
      | true =>
          rw [step_of_special state hmeaning hspecial]
          exact hnumbered.closeRule
      | false =>
          rw [step_of_rule state hmeaning hspecial]
          refine ⟨?_, hnumbered.closeRule.targets⟩
          rintro draft ⟨rfl⟩
          exact hline
  | command text =>
      rw [step_of_command state hmeaning]
      refine ⟨?_, hnumbered.targets⟩
      intro draft hdraft
      obtain ⟨old, hold, rfl⟩ := Option.map_eq_some_iff.mp hdraft
      exact hnumbered.draft old hold

theorem NumberedUpTo.foldl_step {bound : Nat} {state : State} {items : List Item}
    (hnumbered : NumberedUpTo bound state) (hitems : ∀ item ∈ items, item.line ≤ bound) :
    NumberedUpTo bound (items.foldl State.step state) := by
  induction items generalizing state with
  | nil => exact hnumbered
  | cons item items ih =>
      rw [List.forall_mem_cons] at hitems
      exact ih (hnumbered.step hitems.1) hitems.2

theorem numberedUpTo_readLines (lines : List Text) :
    NumberedUpTo lines.length (initial.readLines 1 lines) := by
  apply NumberedUpTo.foldl_step
  · exact ⟨by simp [initial], by simp [initial]⟩
  · intro item hmem
    have hbounds := Item.line_bounds_of_mem_ofLines hmem
    omega

theorem NumberedUpTo.renumber_eq_self {bound : Nat} {state : State}
    (hnumbered : NumberedUpTo bound state) (shift : Nat) :
    state.renumber (numberBelow bound shift) = state := by
  have htargets : state.targets.map (Target.renumber (numberBelow bound shift)) =
      state.targets := by
    apply (List.map_congr_left ?_).trans (List.map_id _)
    intro target hmem
    rw [Target.renumber, numberBelow_of_le shift (hnumbered.targets target hmem), id]
  cases hdraft : state.draft? with
  | none =>
      rw [renumber, htargets, hdraft, Option.map_none, ← hdraft]
  | some draft =>
      have hline := numberBelow_of_le shift (hnumbered.draft draft hdraft)
      rw [renumber, htargets, hdraft, Option.map_some, Target.Draft.renumber, hline, ← hdraft]

/-- Lines that stand further down are read the same, with numbers further down. -/
theorem readLines_shifted {bound : Nat} {state : State}
    (hnumbered : NumberedUpTo bound state) (shift : Nat) (lines : List Text) :
    state.readLines (bound + 1 + shift) lines =
      (state.readLines (bound + 1) lines).renumber (numberBelow bound shift) := by
  -- Every item of the lines is numbered above the bound, and the state is not.
  have hitems : Item.ofLines state.ruleOpen (bound + 1 + shift) lines =
      (Item.ofLines state.ruleOpen (bound + 1) lines).map
        (Item.renumber (numberBelow bound shift)) := by
    rw [Item.ofLines_add]
    apply List.map_congr_left
    intro item hmem
    have hbounds := Item.line_bounds_of_mem_ofLines hmem
    rw [Item.renumber, Item.renumber, numberBelow_of_lt shift (by omega)]
  unfold readLines
  rw [hitems, ← foldl_step_renumber, hnumbered.renumber_eq_self]

end Extraction.State

end MakeOutline
