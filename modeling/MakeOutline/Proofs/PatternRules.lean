import MakeOutline.Proofs.LineGrammar
import MakeOutline.Proofs.Numbering
import MakeOutline.Proofs.PrefixStability
import MakeOutline.Proofs.Recipes

/-!
# Rules for patterns

The header of a rule for a pattern is no line that is understood, so it is passed
over and does not end the rule above it.  The commands below it then count for that
rule.  Such a rule leaves no trace only if it has no command, if no rule is open
above it, or if the open one is defined again further down.
-/

namespace MakeOutline

structure PatternRule where
  header : Text
  recipe : List Text
  flush : startsIndented header = false
  colon : ':' ∈ header
  pattern : '%' ∈ header.takeWhile (· != ':')
  no_equals : '=' ∉ header
  no_comment : header.trimStart.head? ≠ some '#'
  ends : isContinued header = false
  command : ∀ line ∈ recipe, line.head? = some '\t' ∧ isContinued line = false ∧
    ∃ text, Line.ofText line = .command text

namespace PatternRule

def lines (rule : PatternRule) : List Text := rule.header :: rule.recipe

/-- The commands of the recipe without their indentation. -/
def commands (rule : PatternRule) : List Text :=
  rule.recipe.map (·.dropWhile fun c => c == '\t' || c == ' ')

theorem percent_mem_takeWhile (rule : PatternRule) :
    '%' ∈ rule.header.trimStart.takeWhile (· != ':') := by
  have hblanks : ∀ c ∈ rule.header.takeWhile isBlank, (c != ':') = true := by
    intro c hc
    have hblank : isBlank c = true := List.mem_takeWhile_imp hc
    by_contra heq
    obtain rfl : c = ':' := by simpa using heq
    exact absurd hblank (by decide)
  have hcut : rule.header.takeWhile isBlank ++ rule.header.trimStart = rule.header :=
    List.takeWhile_append_dropWhile
  have hpercent := rule.pattern
  rw [← hcut, List.takeWhile_append_of_pos hblanks] at hpercent
  rcases List.mem_append.mp hpercent with hblank | hfront
  · exact absurd (List.mem_takeWhile_imp hblank) (by decide)
  · exact hfront

/-- Before the colon of a header there are only its name and blanks. -/
theorem not_exists_spell (rule : PatternRule) :
    ¬ ∃ parts : Header.Parts, parts.Spell rule.header.trimStart := by
  rintro ⟨parts, hspell⟩
  have hpercent := rule.percent_mem_takeWhile
  rw [hspell.takeWhile_ne_colon] at hpercent
  rcases List.mem_append.mp hpercent with hname | hblank
  · exact absurd (hspell.name '%' hname) (by decide)
  · exact absurd (hspell.blanks '%' hblank) (by decide)

theorem ofText_header (rule : PatternRule) : Line.ofText rule.header = .other := by
  have hcolon : ':' ∈ rule.header.trimStart :=
    Text.mem_dropWhile_of_mem rule.colon (by decide)
  have hblank : ¬ Line.BlankOrComment rule.header := by
    rintro (hnil | hhash)
    · rw [hnil] at hcolon
      simp at hcolon
    · obtain ⟨rest, hrest⟩ := hhash
      apply rule.no_comment
      rw [← hrest]
      rfl
  have hassign : ¬ ∃ parts : Assignment.Parts, parts.Spell rule.header.trimStart := by
    rintro ⟨parts, hspell⟩
    exact rule.no_equals (rule.header.trimStart_suffix.subset hspell.equals_mem)
  have hheader : ¬ ∃ parts, Line.HeaderCut rule.header parts := by
    rintro ⟨parts, hcut⟩
    exact rule.not_exists_spell ⟨parts, hcut.spell⟩
  have hindent : ¬ Line.Indented rule.header := by
    rw [← Line.startsIndented_iff_indented, rule.flush]
    decide
  exact Line.Reads.ofText_eq (.other hblank hassign hheader hindent)

theorem map_ofText_recipe (rule : PatternRule) :
    rule.recipe.map Line.ofText = rule.commands.map Line.command := by
  rw [commands, List.map_map]
  apply List.map_congr_left
  intro line hmem
  obtain ⟨_, _, text, hkind⟩ := rule.command line hmem
  have hreads := Line.reads_ofText line
  rw [hkind] at hreads
  cases hreads with
  | command indentation text hblank hassign hheader hcut =>
      rw [hkind, Function.comp_apply, hcut.dropWhile_eq]

theorem ne_nil_of_mem_commands {rule : PatternRule} {text : Text}
    (hmem : text ∈ rule.commands) : text ≠ [] := by
  obtain ⟨line, hline, hkind⟩ : ∃ line ∈ rule.recipe, Line.ofText line = .command text := by
    have hcommand := List.mem_map_of_mem (f := Line.command) hmem
    rw [← rule.map_ofText_recipe] at hcommand
    exact List.mem_map.mp hcommand
  have hreads := Line.reads_ofText line
  rw [hkind] at hreads
  cases hreads with
  | command indentation text hblank hassign hheader hcut =>
      obtain ⟨c, hc, _⟩ := hcut.exists_not_blank hblank
      exact List.ne_nil_of_mem hc

end PatternRule

/-! ## Reading a rule for a pattern -/

namespace Extraction.State

/-- The header changes nothing, and the commands go to the rule that is open. -/
theorem readLines_patternRule (state : State) (number : Nat) (rule : PatternRule)
    (below : List Text) :
    state.readLines number (rule.lines ++ below) =
      (state.addCommands rule.commands).readLines (number + rule.lines.length) below := by
  have hstarts : Item.startsGroup state.ruleOpen rule.header = false := by
    simp [Item.startsGroup, rule.ends]
  have hmeaning : Meaning.ofLine rule.header = .nothing := by
    rw [Meaning.ofLine, rule.ofText_header]
  have hstep : state.step ⟨number, [rule.header], .ofLine rule.header⟩ = state :=
    state.step_of_nothing hmeaning
  have hends : ∀ line ∈ rule.recipe, isContinued line = false :=
    fun line hmem => (rule.command line hmem).2.1
  rw [PatternRule.lines, List.cons_append, state.readLines_cons number _ hstarts, hstep,
    state.readLines_commands (number + 1) below rule.map_ofText_recipe (.inr hends),
    List.length_cons, Nat.add_assoc, Nat.add_comm 1]

theorem NumberedUpTo.addCommands {bound : Nat} {state : State}
    (hnumbered : NumberedUpTo bound state) (texts : List Text) :
    NumberedUpTo bound (state.addCommands texts) := by
  refine ⟨?_, hnumbered.targets⟩
  intro draft hdraft
  obtain ⟨old, hold, rfl⟩ := Option.map_eq_some_iff.mp hdraft
  rw [Target.Draft.addCommands_eq]
  exact hnumbered.draft old hold

end Extraction.State

/-! ## A command is seen in its target -/

theorem Text.referencedNames_ne_nil_of_expand_eq_nil {table : Variables} {t : Text}
    (hne : t ≠ []) (hexpand : table.expand t = []) : t.referencedNames ≠ [] := by
  have hfragments : t.fragments ≠ [] := by
    intro hnil
    have hwritten := t.flatMap_written_fragments
    rw [hnil] at hwritten
    exact hne hwritten.symm
  obtain ⟨first, others, hcons⟩ := List.exists_cons_of_ne_nil hfragments
  have hfirst : table.expandFragment first = [] := by
    rw [Variables.expand, hcons, List.flatMap_cons, List.append_eq_nil_iff] at hexpand
    exact hexpand.1
  cases hname : first.referencedName? with
  | none =>
      rw [Variables.expandFragment, hname] at hfirst
      exact absurd hfirst first.written_ne_nil
  | some name => simp [referencedNames, hcons, hname]

namespace Target

/-- How much of the target is the recipe's. -/
def recipeSize (target : Target) : Nat := target.commands.length + target.required.length

theorem GrownFrom.recipeSize_le {later earlier : Target} (hgrown : GrownFrom later earlier) :
    earlier.recipeSize ≤ later.recipeSize := by
  have hcommands := hgrown.commands_prefix.length_le
  have hrequired := hgrown.required_prefix.length_le
  unfold recipeSize
  omega

namespace Draft

theorem grownFrom_addCommands (draft : Draft) (commands : List (Variables × Text)) :
    GrownFrom (draft.addCommands commands).toTarget draft.toTarget := by
  induction commands generalizing draft with
  | nil => exact .refl _
  | cons command commands ih =>
      exact (ih (draft.addCommand command.1 command.2)).trans
        (draft.grownFrom_addCommand command.1 command.2)

/-- Where there is no command yet, no variable is required. -/
def Sourced (draft : Draft) : Prop := draft.recipe = [] → draft.required = []

theorem recipeSize_lt_addCommand {draft : Draft} (table : Variables) {text : Text}
    (hsourced : draft.Sourced) (hne : text ≠ []) :
    draft.toTarget.recipeSize < (draft.addCommand table text).toTarget.recipeSize := by
  have hgrown := draft.grownFrom_addCommand table text
  have hrequired := hgrown.required_prefix.length_le
  by_cases hrecipe : draft.recipe = []
  · by_cases hexpand : table.expand text = []
    · have hnames := Text.referencedNames_ne_nil_of_expand_eq_nil hne hexpand
      have hnone := hsourced hrecipe
      obtain ⟨name, hname⟩ := List.exists_mem_of_ne_nil _ hnames
      have hadded : name ∈ addUnseen [] text.referencedNames :=
        mem_addUnseen.mpr (.inr hname)
      have hpos := List.length_pos_of_mem hadded
      simpa [recipeSize, toTarget, addCommand, hrecipe, hnone, hexpand, Text.joinedBy] using hpos
    · have hpos := List.length_pos_iff.mpr hexpand
      simp only [recipeSize, toTarget, addCommand, hrecipe, Text.joinedBy] at hrequired ⊢
      simp
      omega
  · have hlonger := congrArg List.length
      (Text.joinedBy_append_singleton ['\n'] (table.expand text) hrecipe)
    simp only [List.length_append, List.length_singleton] at hlonger
    simp only [recipeSize, toTarget, addCommand] at hrequired ⊢
    omega

theorem toTarget_addCommands_eq_iff {draft : Draft} {table : Variables} {texts : List Text}
    (hsourced : draft.Sourced) (htexts : ∀ text ∈ texts, text ≠ []) :
    (draft.addCommands (texts.map (table, ·))).toTarget = draft.toTarget ↔ texts = [] := by
  constructor
  · intro heq
    cases texts with
    | nil => rfl
    | cons text texts =>
        have hlt := recipeSize_lt_addCommand table hsourced (htexts text List.mem_cons_self)
        have hle := ((draft.addCommand table text).grownFrom_addCommands
          (texts.map (table, ·))).recipeSize_le
        have hsame : ((draft.addCommand table text).addCommands
            (texts.map (table, ·))).toTarget = draft.toTarget := heq
        rw [hsame] at hle
        omega
  · rintro rfl
    rfl

end Draft

end Target

namespace Extraction.State

theorem sourced_draft_step {state : State} {item : Item}
    (hsourced : ∀ draft, state.draft? = some draft → draft.Sourced) :
    ∀ draft, (state.step item).draft? = some draft → draft.Sourced := by
  intro draft hdraft
  rcases state.step_cases item with
    ⟨_, _, hkept⟩ | ⟨header, _, _, hstep⟩ | ⟨text, earlier, _, _, _, hstep⟩
  · exact hsourced draft (hkept draft hdraft)
  · rw [hstep] at hdraft
    obtain rfl := Option.some.inj hdraft
    exact fun _ => rfl
  · rw [hstep] at hdraft
    obtain rfl := Option.some.inj hdraft
    intro hnone
    simp [Target.Draft.addCommand] at hnone

theorem sourced_draft_readLines (lines : List Text) :
    ∀ draft, (initial.readLines 1 lines).draft? = some draft → draft.Sourced := by
  unfold readLines
  induction Item.ofLines initial.ruleOpen 1 lines using List.reverseRecOn with
  | nil => simp [initial]
  | append_singleton items item ih =>
      rw [List.foldl_append]
      exact sourced_draft_step ih

end Extraction.State

/-! ## What is left of the commands further down -/

namespace Layout

theorem map_name_definitionsBelow (above below : List Item) :
    (definitionsBelow above below).map Target.name = Item.openedNames below := by
  induction below generalizing above with
  | nil => rfl
  | cons item below ih =>
      have hname : (Place.definition? ⟨above, item, below⟩).toList.map Target.name =
          item.opened?.toList := by
        cases hmeaning : item.meaning with
        | header header =>
            cases hspecial : Target.isSpecial header.name <;>
              simp [Place.definition?, Item.header?, Item.opened?, hmeaning, hspecial]
        | nothing | assignment a | command text | dropped merged =>
            simp [Place.definition?, Item.header?, Item.opened?, hmeaning]
      rw [definitionsBelow_cons, List.map_append, hname, ih, Item.openedNames_cons]

theorem find?_reverse_eq_none_iff {definitions : List Target} {name : Text} :
    definitions.reverse.find? (·.name == name) = none ↔ name ∉ definitions.map Target.name := by
  rw [List.find?_eq_none, List.mem_map]
  constructor
  · rintro hnone ⟨target, hmem, hname⟩
    exact hnone target (List.mem_reverse.mpr hmem) (by simpa using hname)
  · intro hno target hmem hname
    exact hno ⟨target, List.mem_reverse.mp hmem, by simpa using hname⟩

/-- Where two targets of one name are put in, the definitions further down hide the
difference if and only if one of them has the name, too. -/
theorem foldl_putInto_putInto_eq_iff {definitions targets : List Target}
    {first second : Target} (hname : first.name = second.name)
    (hnodup : ((first.putInto targets).map Target.name).Nodup) :
    definitions.foldl (fun targets target => target.putInto targets) (first.putInto targets) =
        definitions.foldl (fun targets target => target.putInto targets)
          (second.putInto targets) ↔
      first = second ∨ second.name ∈ definitions.map Target.name := by
  constructor
  · intro heq
    by_cases hdefined : second.name ∈ definitions.map Target.name
    · exact .inr hdefined
    · have hfind := congrArg (List.find? (·.name == second.name)) heq
      rw [find?_foldl_putInto, find?_foldl_putInto, find?_reverse_eq_none_iff.mpr hdefined,
        Target.find?_putInto, Target.find?_putInto, if_pos hname, if_pos rfl] at hfind
      exact .inl (Option.some.inj hfind)
  · rintro (rfl | hdefined)
    · rfl
    · have hnamesAll := map_name_foldl_putInto definitions (first.putInto targets)
      have hnodupAll := nodup_addUnseen (definitions.map Target.name) hnodup
      rw [← hnamesAll] at hnodupAll
      apply Target.eq_of_find?_eq _ hnodupAll
      · intro other
        rw [find?_foldl_putInto, find?_foldl_putInto]
        by_cases hother : other = second.name
        · rw [hother]
          cases hlast : definitions.reverse.find? (·.name == second.name) with
          | none => exact absurd hdefined (find?_reverse_eq_none_iff.mp hlast)
          | some last => rfl
        · rw [Target.find?_putInto, Target.find?_putInto, hname, if_neg (Ne.symm hother),
            if_neg (Ne.symm hother)]
      · rw [hnamesAll, map_name_foldl_putInto, Target.map_name_putInto, Target.map_name_putInto,
          hname]

end Layout

namespace Extraction

/-- If the lines are not none, the first of them is a header. -/
def BeginsWithHeader (lines : List Text) : Prop :=
  ∀ line, lines.head? = some line → ∃ header, Line.ofText line = .header header

namespace State

/-- A header ends the open rule, so only the closed targets count for what follows. -/
theorem closedTargets_readLines_of_header {state : State} {above : List Item}
    {lines : List Text} (number : Nat) (htable : state.table = Layout.table above)
    (hlines : BeginsWithHeader lines) :
    (state.readLines number lines).closedTargets =
      (Layout.definitionsBelow above (Item.ofLines state.ruleOpen number lines)).foldl
        (fun targets target => target.putInto targets) state.closedTargets := by
  cases lines with
  | nil => simp [Layout.definitionsBelow, Layout.places]
  | cons line lines =>
      obtain ⟨header, hheader⟩ := hlines line rfl
      have hstarts : Item.startsGroup state.ruleOpen line = false := by
        simp [Item.startsGroup, hheader]
      have hmeaning : Meaning.ofLine line = .header header := by
        rw [Meaning.ofLine, hheader]
      have hitems := Item.ofLines_of_not_startsGroup number lines hstarts
      let item : Item := ⟨number, [line], .ofLine line⟩
      have hitem : item.meaning = .header header := hmeaning
      rw [readLines, Layout.closedTargets_foldl_step htable, hitems,
        Layout.pendingTargets_of_header state above _ hitem]

theorem closedTargets_addCommands_eq_iff {state : State} {above : List Item}
    {below texts : List Text} (number : Nat) (htable : state.table = Layout.table above)
    (hsourced : ∀ draft, state.draft? = some draft → draft.Sourced)
    (hnodup : (state.closedTargets.map Target.name).Nodup)
    (htexts : ∀ text ∈ texts, text ≠ []) (hbelow : BeginsWithHeader below) :
    ((state.addCommands texts).readLines number below).closedTargets =
        (state.readLines number below).closedTargets ↔
      texts = [] ∨ ∀ name, state.openName? = some name →
        name ∈ Item.openedNames (Item.ofLines state.ruleOpen number below) := by
  cases hdraft : state.draft? with
  | none =>
      have hsame : state.addCommands texts = state := addCommands_of_none hdraft texts
      have hclosed : state.openName? = none := by simp [openName?, hdraft]
      simp [hsame, hclosed]
  | some draft =>
      let longer : Target.Draft := draft.addCommands (texts.map (state.table, ·))
      have hopen : state.openName? = some draft.name := by simp [openName?, hdraft]
      have hname : longer.toTarget.name = draft.toTarget.name :=
        (draft.grownFrom_addCommands _).name_eq
      have hearlier : state.closedTargets = draft.toTarget.putInto state.targets :=
        closedTargets_of_some hdraft
      have hlater : (state.addCommands texts).closedTargets =
          longer.toTarget.putInto state.targets :=
        closedTargets_of_some (by simp [addCommands, hdraft, longer])
      have hnodup' : ((longer.toTarget.putInto state.targets).map Target.name).Nodup := by
        rw [Target.map_name_putInto, hname, ← Target.map_name_putInto, ← hearlier]
        exact hnodup
      have htable' : (state.addCommands texts).table = Layout.table above := htable
      have hsame : longer.toTarget = draft.toTarget ↔ texts = [] :=
        Target.Draft.toTarget_addCommands_eq_iff (hsourced draft hdraft) htexts
      have hdraftName : draft.toTarget.name = draft.name := rfl
      rw [closedTargets_readLines_of_header number htable' hbelow,
        closedTargets_readLines_of_header number htable hbelow, ruleOpen_addCommands, hlater,
        hearlier, Layout.foldl_putInto_putInto_eq_iff hname hnodup', hsame,
        Layout.map_name_definitionsBelow, hopen, hdraftName]
      simp

end State

/-- The lines of the rule make no difference but to the numbers of the lines below. -/
def Skipped (above : List Text) (rule : PatternRule) (below : List Text) : Prop :=
  targetsOf (above ++ rule.lines ++ below) =
    (targetsOf (above ++ below)).map
      (Target.renumber (numberBelow above.length rule.lines.length))

theorem renumber_numberBelow_injective {bound shift : Nat} {first second : Target}
    (heq : first.renumber (numberBelow bound shift) =
      second.renumber (numberBelow bound shift)) : first = second := by
  cases first
  cases second
  simp only [Target.renumber, Target.mk.injEq] at heq ⊢
  obtain ⟨hname, hdependencies, hcommands, hrequired, hline⟩ := heq
  refine ⟨hname, hdependencies, hcommands, hrequired, ?_⟩
  unfold numberBelow at hline
  split at hline <;> split at hline <;> omega

theorem skipped_iff (above : List Text) (rule : PatternRule) (below : List Text)
    (habove : Continuation.Complete above) (hbelow : BeginsWithHeader below) :
    Skipped above rule below ↔
      rule.recipe = [] ∨ ∀ name, (State.initial.readLines 1 above).openName? = some name →
        name ∈ openedBelow above below := by
  let state : State := State.initial.readLines 1 above
  have hnumbered : State.NumberedUpTo above.length (state.addCommands rule.commands) :=
    (State.numberedUpTo_readLines above).addCommands rule.commands
  have htable : state.table = Layout.table (Item.ofLines false 1 above) :=
    Layout.table_below _
  have hlength : 1 + above.length + rule.lines.length =
      above.length + 1 + rule.lines.length := by
    omega
  have hwith : targetsOf (above ++ rule.lines ++ below) =
      (((state.addCommands rule.commands).readLines (above.length + 1) below).closedTargets).map
        (Target.renumber (numberBelow above.length rule.lines.length)) := by
    rw [targetsOf_eq_closedTargets, List.append_assoc, State.readLines_append _ _ _ _ habove,
      State.readLines_patternRule, hlength, State.readLines_shifted hnumbered,
      State.closedTargets_renumber]
  have hwithout : targetsOf (above ++ below) =
      (state.readLines (above.length + 1) below).closedTargets := by
    rw [targetsOf_eq_closedTargets, State.readLines_append _ _ _ _ habove,
      Nat.add_comm 1 above.length]
  have hnodup : (state.closedTargets.map Target.name).Nodup := by
    have hnames := nodup_name_targetsOf above
    rw [targetsOf_eq_closedTargets] at hnames
    exact hnames
  have hrecipe : rule.commands = [] ↔ rule.recipe = [] := by simp [PatternRule.commands]
  rw [Skipped, hwith, hwithout,
    List.map_inj_right (fun first second => renumber_numberBelow_injective),
    State.closedTargets_addCommands_eq_iff (above.length + 1) htable
      (State.sourced_draft_readLines above) hnodup
      (fun text => PatternRule.ne_nil_of_mem_commands) hbelow,
    hrecipe, openedBelow, Nat.add_comm 1 above.length]

theorem ofText_compile : Line.ofText "\t$(CC) $<".toList = .command "$(CC) $<".toList := by
  decide +kernel

/-- A rule as it stands in many makefiles. -/
def objectRule : PatternRule where
  header := "%.o: %.c".toList
  recipe := ["\t$(CC) $<".toList]
  flush := by decide
  colon := by decide
  pattern := by decide
  no_equals := by decide
  no_comment := by decide
  ends := by decide
  command := by
    intro line hmem
    obtain rfl := List.mem_singleton.mp hmem
    exact ⟨by decide, by decide, _, ofText_compile⟩

/-- The rule for objects is passed over where the rule above it is defined again. -/
theorem skipped_above_redefinition :
    Skipped ["all:".toList, "\tls".toList] objectRule ["all: main".toList] := by
  have hopened : openedBelow ["all:".toList, "\tls".toList] ["all: main".toList] =
      ["all".toList] := by
    decide +kernel
  have hopen : (State.initial.readLines 1 ["all:".toList, "\tls".toList]).openName? =
      some "all".toList := by
    decide +kernel
  apply (skipped_iff ["all:".toList, "\tls".toList] objectRule ["all: main".toList]
    (by decide) ?_).mpr
  · right
    intro name hname
    rw [hopen] at hname
    rw [hopened]
    simpa using hname.symm
  · rintro line ⟨rfl⟩
    exact ⟨⟨"all".toList, "main".toList⟩, by decide +kernel⟩

/-- The rule for objects is not passed over where another rule is open: this one gets
a command and a required variable. -/
theorem not_skipped_below_open_rule :
    targetsOf (["all:".toList, "\tls".toList] ++ objectRule.lines ++ []) =
        [⟨"all".toList, [], "ls\n$(CC) $<".toList, ["CC".toList], 1⟩] ∧
      targetsOf (["all:".toList, "\tls".toList] ++ []) =
        [⟨"all".toList, [], "ls".toList, [], 1⟩] ∧
      ¬ Skipped ["all:".toList, "\tls".toList] objectRule [] := by
  have hwith : targetsOf (["all:".toList, "\tls".toList] ++ objectRule.lines ++ []) =
      [⟨"all".toList, [], "ls\n$(CC) $<".toList, ["CC".toList], 1⟩] := by
    decide +kernel
  have hwithout : targetsOf (["all:".toList, "\tls".toList] ++ []) =
      [⟨"all".toList, [], "ls".toList, [], 1⟩] := by
    decide +kernel
  refine ⟨hwith, hwithout, ?_⟩
  intro hskipped
  rw [Skipped, hwith, hwithout] at hskipped
  revert hskipped
  decide

end Extraction

end MakeOutline
