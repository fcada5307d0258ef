import MakeOutline.Proofs.Runs

/-!
# Extending a makefile keeps its past

Lines put below complete lines are read on from the state that those leave, with
their numbers moved.  Reading on never takes a name away or moves it.  Under a
name that is not opened again a finished target stays as it is, and the target of
the open rule can only get longer: more commands behind those that it has.
-/

namespace MakeOutline

theorem Text.joinedBy_append_singleton (separator last : Text) {parts : List Text}
    (hne : parts ≠ []) :
    joinedBy separator (parts ++ [last]) = joinedBy separator parts ++ separator ++ last := by
  unfold joinedBy
  induction parts with
  | nil => contradiction
  | cons first others ih =>
      cases others with
      | nil => simp
      | cons second rest =>
          have htail := ih (List.cons_ne_nil second rest)
          rw [List.cons_append] at htail
          rw [List.cons_append, List.cons_append, List.intercalate_cons_cons, htail,
            List.intercalate_cons_cons]
          simp only [List.append_assoc]

theorem Text.joinedBy_prefix_append (separator last : Text) (parts : List Text) :
    joinedBy separator parts <+: joinedBy separator (parts ++ [last]) := by
  by_cases hne : parts = []
  · rw [hne]
    exact List.nil_prefix
  · rw [joinedBy_append_singleton separator last hne, List.append_assoc]
    exact List.prefix_append _ _

namespace Target

/-- The recipe may go on, and nothing else is different. -/
structure GrownFrom (later earlier : Target) : Prop where
  name_eq : later.name = earlier.name
  dependencies_eq : later.dependencies = earlier.dependencies
  line_eq : later.line = earlier.line
  commands_prefix : earlier.commands <+: later.commands
  required_prefix : earlier.required <+: later.required

theorem GrownFrom.refl (target : Target) : GrownFrom target target :=
  ⟨rfl, rfl, rfl, List.prefix_rfl, List.prefix_rfl⟩

theorem GrownFrom.trans {last later earlier : Target}
    (hlast : GrownFrom last later) (hlater : GrownFrom later earlier) :
    GrownFrom last earlier := by
  constructor
  · exact hlast.name_eq.trans hlater.name_eq
  · exact hlast.dependencies_eq.trans hlater.dependencies_eq
  · exact hlast.line_eq.trans hlater.line_eq
  · exact hlater.commands_prefix.trans hlast.commands_prefix
  · exact hlater.required_prefix.trans hlast.required_prefix

theorem Draft.grownFrom_addCommand (draft : Draft) (table : Variables) (command : Text) :
    GrownFrom (draft.addCommand table command).toTarget draft.toTarget := by
  constructor
  · rfl
  · rfl
  · rfl
  · exact Text.joinedBy_prefix_append _ _ _
  · exact prefix_addUnseen _ _

end Target

namespace Extraction

namespace State

def openName? (state : State) : Option Text := state.draft?.map Target.Draft.name

/-- A step that does not open the name again keeps what is found under it, and can
add to it only if its rule is open. -/
theorem find?_closedTargets_step {state : State} {item : Item} {name : Text} {target : Target}
    (hfind : state.closedTargets.find? (·.name == name) = some target)
    (hopened : item.opened? ≠ some name) :
    ∃ later, (state.step item).closedTargets.find? (·.name == name) = some later ∧
      later.GrownFrom target ∧ (state.openName? ≠ some name → later = target) := by
  rcases state.step_cases item with
    ⟨_, hclosed, _⟩ | ⟨header, _, hheader, hstep⟩ | ⟨text, draft, _, _, hdraft, hstep⟩
  · rw [hclosed]
    exact ⟨target, hfind, .refl target, fun _ => rfl⟩
  · have hname : header.name ≠ name := by
      rintro rfl
      exact hopened hheader
    rw [hstep, closedTargets_of_some rfl, Target.find?_putInto]
    rw [if_neg (by exact hname)]
    exact ⟨target, hfind, .refl target, fun _ => rfl⟩
  · rw [closedTargets_of_some hdraft, Target.find?_putInto] at hfind
    rw [hstep, closedTargets_of_some rfl, Target.find?_putInto]
    by_cases hname : draft.name = name
    · rw [if_pos (by exact hname), Option.some.injEq] at hfind
      rw [if_pos (by exact hname)]
      refine ⟨_, rfl, ?_, ?_⟩
      · rw [← hfind]
        exact draft.grownFrom_addCommand state.table text
      · intro hclosed
        simp [openName?, hdraft, hname] at hclosed
    · rw [if_neg (by exact hname)] at hfind
      rw [if_neg (by exact hname)]
      exact ⟨target, hfind, .refl target, fun _ => rfl⟩

theorem openName?_step_ne {state : State} {item : Item} {name : Text}
    (hclosed : state.openName? ≠ some name) (hopened : item.opened? ≠ some name) :
    (state.step item).openName? ≠ some name := by
  rcases state.step_cases item with
    ⟨_, _, hdraft⟩ | ⟨header, _, hheader, hstep⟩ | ⟨text, draft, _, _, hdraft, hstep⟩
  · intro hname
    obtain ⟨draft, hnext, hdraftName⟩ := Option.map_eq_some_iff.mp hname
    apply hclosed
    rw [openName?, hdraft draft hnext, Option.map_some, hdraftName]
  · rw [hstep, openName?]
    exact fun hname => hopened (hheader.trans hname)
  · rw [hstep, openName?]
    rw [openName?, hdraft] at hclosed
    exact hclosed

theorem find?_closedTargets_foldl {state : State} {items : List Item} {name : Text}
    {target : Target}
    (hfind : state.closedTargets.find? (·.name == name) = some target)
    (hopened : name ∉ Item.openedNames items) :
    ∃ later, (items.foldl step state).closedTargets.find? (·.name == name) = some later ∧
      later.GrownFrom target ∧ (state.openName? ≠ some name → later = target) := by
  induction items generalizing state target with
  | nil => exact ⟨target, hfind, .refl target, fun _ => rfl⟩
  | cons item items ih =>
      rw [Item.openedNames_cons, List.mem_append, not_or] at hopened
      have hitem : item.opened? ≠ some name := by
        intro hname
        exact hopened.1 (by simp [hname])
      obtain ⟨next, hnext, hgrown, hsame⟩ := find?_closedTargets_step hfind hitem
      obtain ⟨later, hlater, hgrownLater, hsameLater⟩ := ih hnext hopened.2
      refine ⟨later, hlater, hgrownLater.trans hgrown, ?_⟩
      intro hclosed
      rw [hsameLater (openName?_step_ne hclosed hitem), hsame hclosed]

end State

/-- The names of the rules that the headers of `second` open below `first`. -/
def openedBelow (first second : List Text) : List Text :=
  Item.openedNames
    (Item.ofLines (State.initial.readLines 1 first).ruleOpen (1 + first.length) second)

/-- What putting `second` below `first` leaves of what `first` alone gives. -/
structure PastKept (first second : List Text) : Prop where
  readOn : ∀ (state : State) (number : Nat),
    state.readLines number (first ++ second) =
      (state.readLines number first).readLines (number + first.length) second
  renumbered : ∀ (state : State) (number : Nat),
    state.readLines (number + first.length) second =
      ((Item.ofLines state.ruleOpen number second).map
        (Item.renumber (· + first.length))).foldl State.step state
  names_prefix :
    (targetsOf first).map Target.name <+: (targetsOf (first ++ second)).map Target.name
  finished : ∀ (i : Nat) (target : Target),
    (targetsOf first)[i]? = some target → target.name ∉ openedBelow first second →
      (State.initial.readLines 1 first).openName? ≠ some target.name →
        (targetsOf (first ++ second))[i]? = some target
  listed : ∀ draft, (State.initial.readLines 1 first).draft? = some draft →
    draft.toTarget ∈ targetsOf first
  grown : ∀ (i : Nat) (target : Target),
    (targetsOf first)[i]? = some target → target.name ∉ openedBelow first second →
      ∃ later, (targetsOf (first ++ second))[i]? = some later ∧ later.GrownFrom target

theorem targetsOf_append {first : List Text} (second : List Text)
    (hcomplete : Continuation.Complete first) :
    targetsOf (first ++ second) =
      ((State.initial.readLines 1 first).readLines (1 + first.length) second).closedTargets := by
  rw [targetsOf_eq_closedTargets, State.readLines_append _ _ _ _ hcomplete]

theorem map_name_targetsOf_append {first : List Text} (second : List Text)
    (hcomplete : Continuation.Complete first) :
    (targetsOf (first ++ second)).map Target.name =
      addUnseen ((targetsOf first).map Target.name) (openedBelow first second) := by
  rw [targetsOf_append second hcomplete, targetsOf_eq_closedTargets first]
  exact State.map_name_closedTargets_foldl _ _

theorem exists_later_target {first second : List Text} {i : Nat} {target : Target}
    (hcomplete : Continuation.Complete first) (hget : (targetsOf first)[i]? = some target)
    (hopened : target.name ∉ openedBelow first second) :
    ∃ later, (targetsOf (first ++ second))[i]? = some later ∧ later.GrownFrom target ∧
      ((State.initial.readLines 1 first).openName? ≠ some target.name → later = target) := by
  have hfind := Target.find?_of_mem (nodup_name_targetsOf first) (List.mem_of_getElem? hget)
  rw [targetsOf_eq_closedTargets] at hfind
  obtain ⟨later, hlater, hgrown, hsame⟩ := State.find?_closedTargets_foldl hfind hopened
  refine ⟨later, ?_, hgrown, hsame⟩
  -- The names above the cut keep their places, and each name is listed once.
  have hname : ((targetsOf (first ++ second)).map Target.name)[i]? = some target.name := by
    have hold : ((targetsOf first).map Target.name)[i]? = some target.name := by
      rw [List.getElem?_map, hget, Option.map_some]
    obtain ⟨hi, hvalue⟩ := List.getElem?_eq_some_iff.mp hold
    have hprefix := prefix_addUnseen ((targetsOf first).map Target.name)
      (openedBelow first second)
    rw [map_name_targetsOf_append second hcomplete,
      List.prefix_iff_getElem?.mp hprefix i hi, hvalue]
  apply Target.getElem?_of_find? (nodup_name_targetsOf _) hname
  rw [targetsOf_append second hcomplete]
  exact hlater

theorem pastKept_of_complete (first second : List Text)
    (hcomplete : Continuation.Complete first) : PastKept first second := by
  constructor
  · intro state number
    exact state.readLines_append number first second hcomplete
  · intro state number
    rw [State.readLines, Item.ofLines_add]
  · rw [map_name_targetsOf_append second hcomplete]
    exact prefix_addUnseen _ _
  · intro i target hget hopened hclosed
    obtain ⟨later, hlater, _, hsame⟩ := exists_later_target hcomplete hget hopened
    rw [hlater, hsame hclosed]
  · intro draft hdraft
    rw [targetsOf_eq_closedTargets, State.closedTargets_of_some hdraft]
    exact draft.toTarget.mem_putInto _
  · intro i target hget hopened
    obtain ⟨later, hlater, hgrown, _⟩ := exists_later_target hcomplete hget hopened
    exact ⟨later, hlater, hgrown⟩

/-- The cut may fall inside a recipe. -/
theorem pastKept_inside_recipe :
    Continuation.Complete ["a: b".toList, "\techo $(X)".toList] ∧
      PastKept ["a: b".toList, "\techo $(X)".toList]
        ["X = 1".toList, "\techo $(X) $(Y)".toList, "c:".toList] := by
  have hcomplete : Continuation.Complete ["a: b".toList, "\techo $(X)".toList] := by decide
  exact ⟨hcomplete, pastKept_of_complete _ _ hcomplete⟩

end Extraction

end MakeOutline
