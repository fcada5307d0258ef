import MakeOutline.Proofs.Runs

/-!
# Values do not interfere

Two lists of lines that differ only in the values given to some hidden names are
cut into the same items, and the tables read from them agree on all other names.
So the two give the same targets, with the same commands wherever none of the
hidden names is required.
-/

namespace MakeOutline

/-! ## Texts under two tables -/

theorem Variables.expandFragment_congr {first second : Variables} {fragment : Fragment}
    (hagree : ∀ name, fragment.referencedName? = some name →
      first.get? name = second.get? name) :
    first.expandFragment fragment = second.expandFragment fragment := by
  unfold expandFragment
  cases hname : fragment.referencedName? with
  | none => rfl
  | some name =>
      have hget := hagree name hname
      simp only [hget]

theorem Variables.expand_congr {first second : Variables} {t : Text}
    (hagree : ∀ name ∈ t.referencedNames, first.get? name = second.get? name) :
    first.expand t = second.expand t := by
  unfold expand
  apply List.flatMap_congr
  intro fragment hfragment
  apply expandFragment_congr
  intro name hname
  exact hagree name (List.mem_filterMap.mpr ⟨fragment, hfragment, hname⟩)

section

variable (hidden : Text → Prop)

/-! ## Lines and items that agree outside the hidden names -/

/-- The lines are the same, or both assign to one hidden name and go on alike. -/
def Line.AgreeOutside (first second : Text) : Prop :=
  first = second ∨
    isContinued first = isContinued second ∧
      ∃ a b : Assignment, Line.ofText first = .assignment a ∧
        Line.ofText second = .assignment b ∧ a.name = b.name ∧ hidden a.name

inductive Meaning.AgreeOutside : Meaning → Meaning → Prop where
  | same (meaning : Meaning) : AgreeOutside meaning meaning
  | assignment (a b : Assignment) (hname : a.name = b.name) (hhidden : hidden a.name) :
      AgreeOutside (.assignment a) (.assignment b)
  | dropped (merged other : Text) : AgreeOutside (.dropped merged) (.dropped other)

structure Item.AgreeOutside (first second : Item) : Prop where
  line_eq : first.line = second.line
  meaning : Meaning.AgreeOutside hidden first.meaning second.meaning

end

variable {hidden : Text → Prop}

theorem Line.AgreeOutside.isContinued_eq {first second : Text}
    (hagree : Line.AgreeOutside hidden first second) :
    isContinued first = isContinued second := by
  rcases hagree with rfl | ⟨hcontinued, _⟩
  · rfl
  · exact hcontinued

theorem Line.AgreeOutside.startsGroup_eq {first second : Text}
    (hagree : Line.AgreeOutside hidden first second) (ruleOpen : Bool) :
    Item.startsGroup ruleOpen first = Item.startsGroup ruleOpen second := by
  rcases hagree with rfl | ⟨_, a, b, hfirst, hsecond, _⟩
  · rfl
  · simp [Item.startsGroup, hfirst, hsecond]

theorem Line.AgreeOutside.ofLine {first second : Text}
    (hagree : Line.AgreeOutside hidden first second) :
    Meaning.AgreeOutside hidden (.ofLine first) (.ofLine second) := by
  rcases hagree with rfl | ⟨_, a, b, hfirst, hsecond, hname, hhidden⟩
  · exact .same _
  · rw [Meaning.ofLine, Meaning.ofLine, hfirst, hsecond]
    exact .assignment a b hname hhidden

theorem Meaning.AgreeOutside.ruleOpenAfter_eq {first second : Meaning}
    (hagree : Meaning.AgreeOutside hidden first second) (ruleOpen : Bool) :
    first.ruleOpenAfter ruleOpen = second.ruleOpenAfter ruleOpen := by
  cases hagree <;> rfl

namespace Continuation

theorem forall₂_split {first second : List Text}
    (hagree : List.Forall₂ (Line.AgreeOutside hidden) first second) :
    List.Forall₂ (Line.AgreeOutside hidden) (split first).1 (split second).1 ∧
      List.Forall₂ (Line.AgreeOutside hidden) (split first).2 (split second).2 := by
  induction hagree with
  | nil => exact ⟨.nil, .nil⟩
  | @cons line other lines others hline hlines ih =>
      cases hcontinued : isContinued line with
      | false =>
          rw [split_of_ends lines hcontinued,
            split_of_ends others (hline.isContinued_eq ▸ hcontinued)]
          exact ⟨.cons hline .nil, hlines⟩
      | true =>
          rw [split_of_continued lines hcontinued,
            split_of_continued others (hline.isContinued_eq ▸ hcontinued)]
          exact ⟨.cons hline ih.1, ih.2⟩

theorem eq_or_equals_mem_of_forall₂ {first second : List Text}
    (hagree : List.Forall₂ (Line.AgreeOutside hidden) first second) :
    first = second ∨ (∃ line ∈ first, '=' ∈ line) ∧ ∃ line ∈ second, '=' ∈ line := by
  induction hagree with
  | nil => exact .inl rfl
  | @cons line other lines others hline hlines ih =>
      rcases hline with rfl | ⟨_, a, b, hfirst, hsecond, _⟩
      · rcases ih with rfl | ⟨⟨x, hx, hequals⟩, y, hy, hequals'⟩
        · exact .inl rfl
        · exact .inr ⟨⟨x, List.mem_cons_of_mem _ hx, hequals⟩,
            y, List.mem_cons_of_mem _ hy, hequals'⟩
      · exact .inr ⟨⟨line, List.mem_cons_self, Line.equals_mem_of_assignment hfirst⟩,
          other, List.mem_cons_self, Line.equals_mem_of_assignment hsecond⟩

theorem ofGroup_of_equals_mem {group : List Text} (hmem : ∃ line ∈ group, '=' ∈ line) :
    Meaning.ofGroup group = .dropped (merge group) := by
  obtain ⟨line, hline, hequals⟩ := hmem
  cases hread : Header.ofLine? (merge group) with
  | none => simp [Meaning.ofGroup, hread]
  | some header =>
      exact absurd hequals (equals_not_mem_of_header_merge hread line hline)

/-- A group in which a value differs is no header on either side. -/
theorem agreeOutside_ofGroup {first second : List Text}
    (hagree : List.Forall₂ (Line.AgreeOutside hidden) first second) :
    Meaning.AgreeOutside hidden (.ofGroup first) (.ofGroup second) := by
  rcases eq_or_equals_mem_of_forall₂ hagree with rfl | ⟨hfirst, hsecond⟩
  · exact .same _
  · rw [ofGroup_of_equals_mem hfirst, ofGroup_of_equals_mem hsecond]
    exact .dropped _ _

end Continuation

theorem Item.forall₂_ofLines (ruleOpen : Bool) (number : Nat) (first : List Text) :
    ∀ second, List.Forall₂ (Line.AgreeOutside hidden) first second →
      List.Forall₂ (Item.AgreeOutside hidden) (ofLines ruleOpen number first)
        (ofLines ruleOpen number second) := by
  fun_induction ofLines ruleOpen number first with
  | case1 =>
      intro second hagree
      cases hagree
      rw [ofLines_nil]
      exact .nil
  | case2 ruleOpen number line lines hstarts group meaning ih =>
      intro second hagree
      have hsplit := Continuation.forall₂_split hagree
      cases hagree with
      | @cons _ other _ others hline hlines =>
          have hmeaning := Continuation.agreeOutside_ofGroup hsplit.1
          rw [ofLines_of_startsGroup _ _ (hline.startsGroup_eq ruleOpen ▸ hstarts),
            ← hmeaning.ruleOpenAfter_eq, ← hsplit.1.length_eq]
          exact .cons ⟨rfl, hmeaning⟩ (ih _ hsplit.2)
  | case3 ruleOpen number line lines hstarts meaning ih =>
      intro second hagree
      cases hagree with
      | @cons _ other _ others hline hlines =>
          have hother : startsGroup ruleOpen other = false := by
            rw [← hline.startsGroup_eq ruleOpen]
            simpa using hstarts
          rw [ofLines_of_not_startsGroup _ _ hother, ← hline.ofLine.ruleOpenAfter_eq]
          exact .cons ⟨rfl, hline.ofLine⟩ (ih _ hlines)

/-! ## States that agree outside the hidden names -/

section

variable (hidden : Text → Prop)

structure Target.Draft.AgreeOutside (first second : Draft) : Prop where
  name_eq : first.name = second.name
  dependencies_eq : first.dependencies = second.dependencies
  required_eq : first.required = second.required
  line_eq : first.line = second.line
  recipe_eq : (∀ name ∈ first.required, ¬ hidden name) → first.recipe = second.recipe

structure Target.AgreeOutside (first second : Target) : Prop where
  name_eq : first.name = second.name
  dependencies_eq : first.dependencies = second.dependencies
  required_eq : first.required = second.required
  line_eq : first.line = second.line
  commands_eq : (∀ name ∈ first.required, ¬ hidden name) → first.commands = second.commands

structure Extraction.State.AgreeOutside (first second : State) : Prop where
  get?_eq : ∀ name, ¬ hidden name → first.table.get? name = second.table.get? name
  draft? : Option.Rel (Target.Draft.AgreeOutside hidden) first.draft? second.draft?
  targets : List.Forall₂ (Target.AgreeOutside hidden) first.targets second.targets

end

namespace Target.Draft

theorem AgreeOutside.ofHeader (header : Header) (line : Nat) :
    Draft.AgreeOutside hidden (.ofHeader header line) (.ofHeader header line) :=
  ⟨rfl, rfl, rfl, rfl, fun _ => rfl⟩

theorem AgreeOutside.toTarget {first second : Draft}
    (hagree : Draft.AgreeOutside hidden first second) :
    Target.AgreeOutside hidden first.toTarget second.toTarget := by
  constructor
  · exact hagree.name_eq
  · exact hagree.dependencies_eq
  · exact hagree.required_eq
  · exact hagree.line_eq
  · intro hrequired
    simp only [Draft.toTarget, hagree.recipe_eq hrequired]

theorem AgreeOutside.addCommand {first second : Draft} {table other : Variables}
    (hagree : Draft.AgreeOutside hidden first second)
    (hget : ∀ name, ¬ hidden name → table.get? name = other.get? name) (command : Text) :
    Draft.AgreeOutside hidden (first.addCommand table command)
      (second.addCommand other command) := by
  constructor
  · exact hagree.name_eq
  · exact hagree.dependencies_eq
  · simp only [Draft.addCommand, hagree.required_eq]
  · exact hagree.line_eq
  · intro hrequired
    have hrecipe : first.recipe = second.recipe := by
      apply hagree.recipe_eq
      intro name hname
      exact hrequired name (mem_addUnseen.mpr (.inl hname))
    -- The names of the command are required as well, so their values are the same.
    have hexpand : table.expand command = other.expand command := by
      apply Variables.expand_congr
      intro name hname
      exact hget name (hrequired name (mem_addUnseen.mpr (.inr hname)))
    simp only [Draft.addCommand, hrecipe, hexpand]

end Target.Draft

namespace Extraction.State

theorem AgreeOutside.closedTargets {first second : State}
    (hagree : State.AgreeOutside hidden first second) :
    List.Forall₂ (Target.AgreeOutside hidden) first.closedTargets second.closedTargets := by
  have hdraft := hagree.draft?
  cases hfirst : first.draft? with
  | none =>
      cases hsecond : second.draft? with
      | none =>
          rw [closedTargets_of_none hfirst, closedTargets_of_none hsecond]
          exact hagree.targets
      | some draft =>
          rw [hfirst, hsecond] at hdraft
          cases hdraft
  | some draft =>
      cases hsecond : second.draft? with
      | none =>
          rw [hfirst, hsecond] at hdraft
          cases hdraft
      | some other =>
          rw [hfirst, hsecond] at hdraft
          rw [closedTargets_of_some hfirst, closedTargets_of_some hsecond]
          cases hdraft with
          | some hdraft =>
              exact Target.forall₂_putInto (fun _ _ h => h.name_eq) hdraft.toTarget
                hagree.targets

theorem AgreeOutside.closeRule {first second : State}
    (hagree : State.AgreeOutside hidden first second) :
    State.AgreeOutside hidden first.closeRule second.closeRule := by
  constructor
  · rw [closeRule_table, closeRule_table]
    exact hagree.get?_eq
  · rw [closeRule_draft?, closeRule_draft?]
    exact .none
  · exact hagree.closedTargets

theorem AgreeOutside.addCommand {first second : State}
    (hagree : State.AgreeOutside hidden first second) (text : Text) :
    Option.Rel (Target.Draft.AgreeOutside hidden)
      (first.draft?.map (·.addCommand first.table text))
      (second.draft?.map (·.addCommand second.table text)) := by
  have hdraft := hagree.draft?
  cases hfirst : first.draft? <;> cases hsecond : second.draft? <;>
    rw [hfirst, hsecond] at hdraft <;> cases hdraft
  · exact .none
  · next hdraft => exact .some (hdraft.addCommand hagree.get?_eq text)

theorem AgreeOutside.step {first second : State} {item other : Item}
    (hagree : State.AgreeOutside hidden first second)
    (hitem : Item.AgreeOutside hidden item other) :
    State.AgreeOutside hidden (first.step item) (second.step other) := by
  obtain ⟨number, lines, meaning⟩ := item
  obtain ⟨_, lines', meaning'⟩ := other
  obtain ⟨hline, hmeaning⟩ := hitem
  simp only at hline hmeaning
  subst hline
  cases hmeaning with
  | same =>
      cases meaning with
      | nothing => exact hagree
      | dropped merged => exact hagree
      | assignment a =>
          refine ⟨?_, hagree.draft?, hagree.targets⟩
          intro name hname
          simp only [State.step, Variables.get?_assign, hagree.get?_eq name hname]
      | header header =>
          simp only [State.step, startRule]
          split
          · exact hagree.closeRule
          · exact ⟨hagree.closeRule.get?_eq, .some (.ofHeader header number),
              hagree.closeRule.targets⟩
      | command text => exact ⟨hagree.get?_eq, hagree.addCommand text, hagree.targets⟩
  | assignment a b hname hhidden =>
      refine ⟨?_, hagree.draft?, hagree.targets⟩
      intro name hvisible
      have hne : a.name ≠ name := by
        rintro rfl
        exact hvisible hhidden
      simp only [State.step, Variables.get?_assign, ← hname, if_neg hne,
        hagree.get?_eq name hvisible]
  | dropped merged other => exact hagree

theorem AgreeOutside.foldl_step {first second : State} {items others : List Item}
    (hagree : State.AgreeOutside hidden first second)
    (hitems : List.Forall₂ (Item.AgreeOutside hidden) items others) :
    State.AgreeOutside hidden (items.foldl State.step first) (others.foldl State.step second) := by
  induction hitems generalizing first second with
  | nil => exact hagree
  | cons hitem _ ih => exact ih (hagree.step hitem)

theorem agreeOutside_initial : State.AgreeOutside hidden initial initial :=
  ⟨fun _ _ => rfl, .none, .nil⟩

end Extraction.State

theorem Extraction.forall₂_targetsOf {first second : List Text}
    (hlines : List.Forall₂ (Line.AgreeOutside hidden) first second) :
    List.Forall₂ (Target.AgreeOutside hidden) (targetsOf first) (targetsOf second) := by
  have hitems := Item.forall₂_ofLines false 1 first second hlines
  rw [targetsOf_eq_closedTargets, targetsOf_eq_closedTargets]
  exact (State.agreeOutside_initial.foldl_step hitems).closedTargets

/-! ## Lines in which only values differ -/

/-- The lines are the same, or assign to one name and go on alike. -/
def Line.SameButValue (first second : Text) : Prop :=
  first = second ∨
    isContinued first = isContinued second ∧
      ∃ a b : Assignment, Line.ofText first = .assignment a ∧
        Line.ofText second = .assignment b ∧ a.name = b.name

/-- The names that lines of the first list assign to where the second list differs. -/
def changedNames : List Text → List Text → List Text
  | line :: lines, other :: others =>
    if line = other then changedNames lines others
    else ((Line.ofText line).assignment?.map Assignment.name).toList ++ changedNames lines others
  | _, _ => []

theorem forall₂_agreeOutside_changedNames {first second : List Text}
    (hlines : List.Forall₂ Line.SameButValue first second) :
    List.Forall₂ (Line.AgreeOutside (· ∈ changedNames first second)) first second := by
  induction hlines with
  | nil => exact .nil
  | @cons line other lines others hline hlines ih =>
      have hmono : ∀ name, name ∈ changedNames lines others →
          name ∈ changedNames (line :: lines) (other :: others) := by
        intro name hname
        unfold changedNames
        split
        · exact hname
        · exact List.mem_append_right _ hname
      refine .cons ?_ (ih.imp ?_)
      · by_cases heq : line = other
        · exact .inl heq
        · rcases hline with hsame | ⟨hcontinued, a, b, hfirst, hsecond, hname⟩
          · exact .inl hsame
          · refine .inr ⟨hcontinued, a, b, hfirst, hsecond, hname, ?_⟩
            simp [changedNames, heq, hfirst, Line.assignment?]
      · intro x y hagree
        refine hagree.imp_right ?_
        rintro ⟨hcontinued, a, b, hfirst, hsecond, hname, hhidden⟩
        exact ⟨hcontinued, a, b, hfirst, hsecond, hname, hmono _ hhidden⟩

/-- A target depends on no value but those of the names that it requires. -/
theorem targetsOf_agree_of_sameButValue (first second : List Text)
    (hlines : List.Forall₂ Line.SameButValue first second) :
    List.Forall₂ (Target.AgreeOutside (· ∈ changedNames first second))
      (Extraction.targetsOf first) (Extraction.targetsOf second) :=
  Extraction.forall₂_targetsOf (forall₂_agreeOutside_changedNames hlines)

/-- One of the two changed lines is inside a group, where it assigns nothing. -/
theorem targetsOf_agree_of_two_changed_lines :
    List.Forall₂ Line.SameButValue
        ["x \\".toList, "A = 1".toList, "A = 2".toList, "t:".toList, "\t$(A) $(B)".toList]
        ["x \\".toList, "A = 3".toList, "A :=".toList, "t:".toList, "\t$(A) $(B)".toList] ∧
      List.Forall₂
        (Target.AgreeOutside (· ∈ changedNames
          ["x \\".toList, "A = 1".toList, "A = 2".toList, "t:".toList, "\t$(A) $(B)".toList]
          ["x \\".toList, "A = 3".toList, "A :=".toList, "t:".toList, "\t$(A) $(B)".toList]))
        (Extraction.targetsOf
          ["x \\".toList, "A = 1".toList, "A = 2".toList, "t:".toList, "\t$(A) $(B)".toList])
        (Extraction.targetsOf
          ["x \\".toList, "A = 3".toList, "A :=".toList, "t:".toList, "\t$(A) $(B)".toList]) := by
  have hgrouped : Line.SameButValue "A = 1".toList "A = 3".toList :=
    .inr ⟨by decide, ⟨['A'], ['1']⟩, ⟨['A'], ['3']⟩, by decide, by decide, rfl⟩
  have hsingle : Line.SameButValue "A = 2".toList "A :=".toList :=
    .inr ⟨by decide, ⟨['A'], ['2']⟩, ⟨['A'], []⟩, by decide, by decide, rfl⟩
  have hlines : List.Forall₂ Line.SameButValue
      ["x \\".toList, "A = 1".toList, "A = 2".toList, "t:".toList, "\t$(A) $(B)".toList]
      ["x \\".toList, "A = 3".toList, "A :=".toList, "t:".toList, "\t$(A) $(B)".toList] :=
    .cons (.inl rfl) (.cons hgrouped (.cons hsingle (.cons (.inl rfl) (.cons (.inl rfl) .nil))))
  exact ⟨hlines, targetsOf_agree_of_sameButValue _ _ hlines⟩

end MakeOutline
