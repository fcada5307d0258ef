import MakeOutline.Proofs.Recipes
import MakeOutline.Proofs.WellFormed

/-!
# Reading back what is written out

A makefile is written out as its assignments, a line each, and then its rules, each
as a header and a line for every command.  Whatever the values, the dependencies
and the commands hold, no such line can be taken for one of another kind, so
reading the lines gives the assignments and the rules back.
-/

namespace MakeOutline

/-! ## What can be written out -/

structure PlainAssignment where
  name : Text
  value : Text
  name_accepted : VariableName.accepts name = true
  value_trimmed : value.trim = value

namespace PlainAssignment

def line (a : PlainAssignment) : Text := a.name ++ [' ', '=', ' '] ++ a.value

def pair (a : PlainAssignment) : Text × Text := (a.name, a.value)

/-- The value that a name is assigned last. -/
def lastValue? (assignments : List PlainAssignment) (name : Text) : Option Text :=
  (assignments.reverse.find? (·.name == name)).map value

end PlainAssignment

/-- The text of a command that stands for itself behind a tab. -/
structure PlainCommand (command : Text) : Prop where
  ne_nil : command ≠ []
  head : ∀ c ∈ command.head?, isBlank c = false ∧ c ≠ '#'
  not_assignment : ¬ ∃ parts : Assignment.Parts, parts.Spell command

structure PlainRule where
  name : Text
  dependencies : List Text
  commands : List Text
  name_ne_nil : name ≠ []
  name_chars : ∀ c ∈ name, Header.isNameChar c = true
  name_head : name.head? ≠ some '.'
  dependency : ∀ dependency ∈ dependencies,
    dependency ≠ [] ∧ ∀ c ∈ dependency, isBlank c = false ∧ c ≠ '='
  last_dependency : ∀ dependency ∈ dependencies.getLast?, isContinued dependency = false
  command : ∀ command ∈ commands, PlainCommand command

namespace PlainRule

def dependencyText (rule : PlainRule) : Text := rule.dependencies.flatMap (' ' :: ·)

def headerLine (rule : PlainRule) : Text := rule.name ++ ':' :: rule.dependencyText

def lines (rule : PlainRule) : List Text := rule.headerLine :: rule.commands.map ('\t' :: ·)

/-- The target that the rule is, with its header on the given line. -/
def target (table : Variables) (number : Nat) (rule : PlainRule) : Target where
  name := rule.name
  dependencies := rule.dependencies
  commands := Text.joinedBy ['\n'] (rule.commands.map table.expand)
  required := (rule.commands.flatMap Text.referencedNames).eraseDups
  line := number

/-- The targets of rules that are written one below the other from line `number` on. -/
def targetsFrom (table : Variables) (number : Nat) : List PlainRule → List Target
  | [] => []
  | rule :: rules =>
    rule.target table number :: targetsFrom table (number + rule.lines.length) rules

end PlainRule

def writtenOut (assignments : List PlainAssignment) (rules : List PlainRule) : List Text :=
  assignments.map PlainAssignment.line ++ rules.flatMap PlainRule.lines

/-! ## Words with blanks between them -/

namespace Text

theorem words_append_blank {c : Char} (s t : Text) (hc : isBlank c = true) :
    words (s ++ c :: t) = words s ++ words t := by
  unfold words
  rw [List.splitOnP_append_cons s t hc, List.filter_append]

theorem words_cons_blank {c : Char} (t : Text) (hc : isBlank c = true) :
    words (c :: t) = words t := by
  have happend := words_append_blank [] t hc
  have hnil : words [] = [] := by simp [words, List.splitOnP_nil]
  rwa [hnil] at happend

theorem words_of_not_blank {word : Text} (hne : word ≠ [])
    (hword : ∀ c ∈ word, isBlank c = false) : words word = [word] := by
  unfold words
  rw [List.splitOnP_eq_singleton hword]
  simp [hne]

theorem words_trimStart (t : Text) : words t.trimStart = words t := by
  unfold trimStart
  induction t with
  | nil => rfl
  | cons c t ih =>
      cases hc : isBlank c with
      | true => rw [List.dropWhile_cons_of_pos hc, ih, words_cons_blank t hc]
      | false => rw [List.dropWhile_cons_of_neg (by simp [hc])]

theorem words_trimEnd (t : Text) : words t.trimEnd = words t := by
  unfold trimEnd
  induction t using List.reverseRecOn with
  | nil => rfl
  | append_singleton t c ih =>
      cases hc : isBlank c with
      | true =>
          have hdrop : dropTrailing isBlank (t ++ [c]) = dropTrailing isBlank t := by
            simp [dropTrailing, hc]
          have hnil : words [] = [] := by simp [words, List.splitOnP_nil]
          rw [hdrop, ih, words_append_blank t [] hc, hnil, List.append_nil]
      | false =>
          rw [dropTrailing_append_cons t [] hc]
          rfl

theorem words_trim (t : Text) : words t.trim = words t := by
  rw [trim, words_trimEnd, words_trimStart]

theorem words_flatMap_space {parts : List Text}
    (hparts : ∀ part ∈ parts, part ≠ [] ∧ ∀ c ∈ part, isBlank c = false) :
    words (parts.flatMap (' ' :: ·)) = parts := by
  induction parts using List.reverseRecOn with
  | nil => rfl
  | append_singleton parts last ih =>
      have hfront : ∀ part ∈ parts, part ≠ [] ∧ ∀ c ∈ part, isBlank c = false :=
        fun part hmem => hparts part (List.mem_append_left _ hmem)
      have hlast := hparts last (List.mem_append_right _ (List.mem_singleton_self last))
      rw [List.flatMap_append, List.flatMap_singleton, words_append_blank _ _ (by decide),
        ih hfront, words_of_not_blank hlast.1 hlast.2]

end Text

/-! ## Kinds of the lines -/

theorem VariableName.exists_head_of_accepts {name : Text} (hname : accepts name = true) :
    ∃ c t, name = c :: t ∧ Header.isNameChar c = true := by
  cases name with
  | nil => simp [accepts] at hname
  | cons c t => exact ⟨c, t, rfl, isNameChar_of_accepts hname c List.mem_cons_self⟩

theorem Header.trimStart_cons_of_isNameChar {c : Char} (t : Text) (hc : isNameChar c = true) :
    Text.trimStart (c :: t) = c :: t :=
  List.dropWhile_cons_of_neg (by simp [isBlank_eq_false_of_isNameChar hc])

theorem PlainAssignment.ofText_line (a : PlainAssignment) :
    Line.ofText a.line = .assignment ⟨a.name, a.value⟩ := by
  obtain ⟨c, t, hname, hc⟩ := VariableName.exists_head_of_accepts a.name_accepted
  have htrim : a.line.trimStart = a.line := by
    rw [line, hname]
    exact Header.trimStart_cons_of_isNameChar _ hc
  have hblank : ¬ Line.BlankOrComment a.line := by
    rw [Line.BlankOrComment, htrim, line, hname]
    rintro (hnil | ⟨rest, hhash⟩)
    · simp at hnil
    · obtain ⟨rfl, _⟩ := List.cons_eq_cons.mp hhash
      exact absurd hc (by decide)
  let parts : Assignment.Parts := ⟨a.name, [' '], [], ' ' :: a.value⟩
  have hspell : parts.Spell a.line.trimStart := by
    constructor
    · rw [htrim]
      simp [line, parts, Assignment.Parts.behindName]
    · exact a.name_accepted
    · simp [parts, isBlank, blankRanges, inRanges]
    · exact .inl rfl
  have hvalue : parts.assignment = ⟨a.name, a.value⟩ := by
    have hspace : Text.trim (' ' :: a.value) = a.value.trim := rfl
    rw [Assignment.Parts.assignment, hspace, a.value_trimmed]
  rw [← hvalue]
  exact Line.Reads.ofText_eq (.assignment parts hblank hspell)

theorem isContinued_append {t : Text} (s : Text) (ht : t ≠ []) :
    isContinued (s ++ t) = isContinued t := by
  rw [isContinued, List.getLast?_append_of_ne_nil s ht, ← isContinued]

namespace PlainRule

theorem isSpecial_name (rule : PlainRule) : Target.isSpecial rule.name = false := by
  have hdot : ∀ directive ∈ Target.directives, directive.head? = some '.' := by decide
  have hdirective : rule.name ∉ Target.directives :=
    fun hmem => rule.name_head (hdot rule.name hmem)
  have hequals : '=' ∉ rule.name :=
    fun hmem => absurd (rule.name_chars '=' hmem) (by decide)
  have hvisible : rule.name.trim ≠ [] := by
    obtain ⟨c, t, hname⟩ := List.exists_cons_of_ne_nil rule.name_ne_nil
    have hc : Header.isNameChar c = true := rule.name_chars c (by simp [hname])
    have hstart : rule.name.trimStart = rule.name := by
      rw [hname]
      exact Header.trimStart_cons_of_isNameChar t hc
    have hkept : c ∈ rule.name.trim := by
      rw [Text.trim, hstart]
      exact Text.mem_dropTrailing_of_mem (by simp [hname])
        (Header.isBlank_eq_false_of_isNameChar hc)
    exact List.ne_nil_of_mem hkept
  have hhead := rule.name_head
  simp [Target.isSpecial, hdirective, hequals, hvisible, hhead]

theorem equals_not_mem_dependencyText (rule : PlainRule) : '=' ∉ rule.dependencyText := by
  intro hmem
  obtain ⟨dependency, hdependency, hc⟩ := List.mem_flatMap.mp hmem
  rcases List.mem_cons.mp hc with heq | hc
  · exact absurd heq (by decide)
  · exact ((rule.dependency dependency hdependency).2 '=' hc).2 rfl

theorem isContinued_headerLine (rule : PlainRule) : isContinued rule.headerLine = false := by
  rcases List.eq_nil_or_concat rule.dependencies with hnone | ⟨front, last, hdependencies⟩
  · simp [isContinued, headerLine, dependencyText, hnone]
  · have hmem : last ∈ rule.dependencies := by simp [hdependencies]
    have hends : isContinued last = false := by
      apply rule.last_dependency
      simp [hdependencies]
    have hline : rule.headerLine =
        rule.name ++ ':' :: front.flatMap (' ' :: ·) ++ [' '] ++ last := by
      simp [headerLine, dependencyText, hdependencies]
    rw [hline, isContinued_append _ (rule.dependency last hmem).1, hends]

theorem ofLine?_headerLine (rule : PlainRule) :
    Header.ofLine? rule.headerLine = some ⟨rule.name, rule.dependencyText.trim⟩ := by
  obtain ⟨c, t, hname⟩ := List.exists_cons_of_ne_nil rule.name_ne_nil
  have hc : Header.isNameChar c = true := rule.name_chars c (by simp [hname])
  have htrim : rule.headerLine.trimStart = rule.headerLine := by
    rw [headerLine, hname]
    exact Header.trimStart_cons_of_isNameChar _ hc
  have hflush : ¬ Line.Indented rule.headerLine := by
    rw [headerLine, hname]
    rintro (⟨rest, htab⟩ | ⟨rest, hspaces⟩)
    · obtain ⟨rfl, _⟩ := List.cons_eq_cons.mp htab
      exact absurd hc (by decide)
    · obtain ⟨rfl, _⟩ := List.cons_eq_cons.mp hspaces
      exact absurd hc (by decide)
  have hindent : startsIndented rule.headerLine = false := by
    rw [← Bool.not_eq_true, Line.startsIndented_iff_indented]
    exact hflush
  refine Header.ofLine?_eq_some_iff.mpr ⟨hindent, ⟨rule.name, [], rule.dependencyText⟩, ?_, rfl⟩
  constructor
  · rw [htrim]
    rfl
  · exact rule.name_ne_nil
  · exact rule.name_chars
  · simp
  · exact rule.equals_not_mem_dependencyText

theorem ofText_headerLine (rule : PlainRule) :
    Line.ofText rule.headerLine = .header ⟨rule.name, rule.dependencyText.trim⟩ :=
  Line.ofText_eq_header rule.ofLine?_headerLine rule.isContinued_headerLine

theorem dependencies_header (rule : PlainRule) :
    Header.dependencies ⟨rule.name, rule.dependencyText.trim⟩ = rule.dependencies := by
  rw [Header.dependencies, Text.words_trim]
  apply Text.words_flatMap_space
  intro dependency hmem
  obtain ⟨hne, hchars⟩ := rule.dependency dependency hmem
  exact ⟨hne, fun c hc => (hchars c hc).1⟩

end PlainRule

theorem plainCommand_iff {command : Text} :
    PlainCommand command ↔ command.head?.any (fun c => !isBlank c && c != '#') = true ∧
      Assignment.ofLine? command = none := by
  have hread (hhead : ∀ c ∈ command.head?, isBlank c = false ∧ c ≠ '#') :
      (¬ ∃ parts : Assignment.Parts, parts.Spell command) ↔
        Assignment.ofLine? command = none := by
    have htrim : command.trimStart = command :=
      Text.trimStart_append_of_head? (s := []) (by simp) fun c hc => (hhead c hc).1
    rw [Line.not_exists_spell_iff, htrim]
  constructor
  · rintro ⟨hne, hhead, hassign⟩
    obtain ⟨c, t, rfl⟩ := List.exists_cons_of_ne_nil hne
    exact ⟨by simpa using hhead c rfl, (hread hhead).mp hassign⟩
  · rintro ⟨hany, hassign⟩
    cases command with
    | nil => contradiction
    | cons c t =>
        have hhead : ∀ d ∈ (c :: t).head?, isBlank d = false ∧ d ≠ '#' := by
          rintro d ⟨rfl⟩
          simpa using hany
        exact ⟨List.cons_ne_nil c t, hhead, (hread hhead).mpr hassign⟩

instance (command : Text) : Decidable (PlainCommand command) :=
  decidable_of_iff _ plainCommand_iff.symm

theorem PlainCommand.ofText_tab {command : Text} (hplain : PlainCommand command) :
    Line.ofText ('\t' :: command) = .command command := by
  obtain ⟨c, t, hcommand⟩ := List.exists_cons_of_ne_nil hplain.ne_nil
  obtain ⟨hc, hhash⟩ := hplain.head c (by simp [hcommand])
  have htrim : Text.trimStart ('\t' :: command) = command := by
    apply Text.trimStart_append_of_head? (s := ['\t'])
    · simp [isBlank, blankRanges, inRanges]
    · exact fun first hfirst => (hplain.head first hfirst).1
  have hblank : ¬ Line.BlankOrComment ('\t' :: command) := by
    rw [Line.BlankOrComment, htrim, hcommand]
    rintro (hnil | ⟨rest, heq⟩)
    · simp at hnil
    · exact hhash (List.cons_eq_cons.mp heq).1.symm
  have hassign : ¬ ∃ parts : Assignment.Parts,
      parts.Spell (Text.trimStart ('\t' :: command)) := by
    rw [htrim]
    exact hplain.not_assignment
  have hindented : Line.Indented ('\t' :: command) := .inl ⟨command, rfl⟩
  have hheader : ¬ ∃ parts, Line.HeaderCut ('\t' :: command) parts := by
    rintro ⟨parts, hcut⟩
    exact hcut.flush hindented
  have hcut : Line.CommandCut ('\t' :: command) ['\t'] command := by
    refine ⟨hindented, rfl, by simp, ?_⟩
    intro first hfirst
    obtain rfl : c = first := by simpa [hcommand] using hfirst
    rintro (rfl | rfl) <;> exact absurd hc (by decide)
  exact Line.Reads.ofText_eq (.command _ _ hblank hassign hheader hcut)

/-! ## Reading the lines -/

namespace Target

theorem putInto_of_not_mem {target : Target} {targets : List Target}
    (hmem : target.name ∉ targets.map name) : target.putInto targets = targets ++ [target] := by
  induction targets with
  | nil => rfl
  | cons first others ih =>
      rw [List.map_cons, List.mem_cons, not_or] at hmem
      have hne : first.name ≠ target.name := fun heq => hmem.1 heq.symm
      rw [putInto, if_neg hne, ih hmem.2, List.cons_append]

end Target

namespace Extraction

namespace State

theorem readLines_plainAssignments (state : State) (number : Nat)
    (assignments : List PlainAssignment) (below : List Text) :
    state.readLines number (assignments.map PlainAssignment.line ++ below) =
      { state with
        table := (assignments.map PlainAssignment.pair).foldl
          (fun table (name, value) => table.assign name value) state.table }.readLines
        (number + assignments.length) below := by
  induction assignments generalizing state number with
  | nil => rfl
  | cons a assignments ih =>
      have hstarts : Item.startsGroup state.ruleOpen a.line = false := by
        simp [Item.startsGroup, a.ofText_line]
      have hmeaning : Meaning.ofLine a.line = .assignment ⟨a.name, a.value⟩ := by
        rw [Meaning.ofLine, a.ofText_line]
      have hstep : state.step ⟨number, [a.line], .ofLine a.line⟩ =
          { state with table := state.table.assign a.name a.value } :=
        state.step_of_assignment (a := ⟨a.name, a.value⟩) hmeaning
      rw [List.map_cons, List.cons_append, state.readLines_cons number _ hstarts, hstep, ih,
        List.length_cons, Nat.add_assoc, Nat.add_comm 1]
      rfl

/-- A rule ends the rule above it and stays open. -/
theorem readLines_plainRule (state : State) (number : Nat) (rule : PlainRule)
    (below : List Text) :
    ∃ draft : Target.Draft, draft.toTarget = rule.target state.table number ∧
      state.readLines number (rule.lines ++ below) =
        { state.closeRule with draft? := some draft }.readLines
          (number + rule.lines.length) below := by
  let header : Header := ⟨rule.name, rule.dependencyText.trim⟩
  let opened : State :=
    { state.closeRule with draft? := some (.ofHeader header number) }
  have hstarts : Item.startsGroup state.ruleOpen rule.headerLine = false := by
    simp [Item.startsGroup, rule.isContinued_headerLine]
  have hmeaning : Meaning.ofLine rule.headerLine = .header header := by
    rw [Meaning.ofLine, rule.ofText_headerLine]
  have hstep : state.step ⟨number, [rule.headerLine], .ofLine rule.headerLine⟩ = opened :=
    state.step_of_rule hmeaning rule.isSpecial_name
  have hcommands : (rule.commands.map ('\t' :: ·)).map Line.ofText =
      rule.commands.map Line.command := by
    rw [List.map_map]
    apply List.map_congr_left
    intro command hmem
    exact (rule.command command hmem).ofText_tab
  refine ⟨(Target.Draft.ofHeader header number).addCommands
    (rule.commands.map (state.table, ·)), ?_, ?_⟩
  · rw [Target.Draft.addCommands_eq]
    simp [Target.Draft.toTarget, Target.Draft.ofHeader, PlainRule.target, header,
      rule.dependencies_header, List.flatMap_map, addUnseen_eq_eraseDups, Function.comp_def]
  · have hlength : number + 1 + (rule.commands.map ('\t' :: ·)).length =
        number + rule.lines.length := by
      simp only [PlainRule.lines, List.length_cons, List.length_map]
      omega
    have hadded : opened.addCommands rule.commands =
        { state.closeRule with
          draft? := some ((Target.Draft.ofHeader header number).addCommands
            (rule.commands.map (state.table, ·))) } := by
      simp [addCommands, opened]
    have hcut : rule.lines ++ below =
        rule.headerLine :: (rule.commands.map ('\t' :: ·) ++ below) := rfl
    rw [hcut, state.readLines_cons number _ hstarts, hstep,
      opened.readLines_commands (number + 1) below hcommands (.inl rfl), hlength, hadded]

theorem closedTargets_readLines_plainRules (state : State) (number : Nat)
    {rules : List PlainRule} (hnames : (rules.map PlainRule.name).Nodup)
    (hnew : ∀ rule ∈ rules, rule.name ∉ state.closedTargets.map Target.name) :
    (state.readLines number (rules.flatMap PlainRule.lines)).closedTargets =
      state.closedTargets ++ PlainRule.targetsFrom state.table number rules := by
  induction rules generalizing state number with
  | nil => simp [PlainRule.targetsFrom]
  | cons rule rules ih =>
      obtain ⟨draft, htarget, hread⟩ :=
        state.readLines_plainRule number rule (rules.flatMap PlainRule.lines)
      rw [List.map_cons, List.nodup_cons] at hnames
      rw [List.forall_mem_cons] at hnew
      have hname : draft.toTarget.name = rule.name := by rw [htarget]; rfl
      have hclosed : State.closedTargets { state.closeRule with draft? := some draft } =
          state.closedTargets ++ [rule.target state.table number] := by
        have habsent : draft.toTarget.name ∉ state.closedTargets.map Target.name := by
          rw [hname]
          exact hnew.1
        rw [closedTargets_of_some rfl, ← htarget]
        exact Target.putInto_of_not_mem habsent
      have hrest : ∀ other ∈ rules, other.name ∉
          (State.closedTargets { state.closeRule with draft? := some draft }).map
            Target.name := by
        intro other hother
        rw [hclosed, List.map_append, List.mem_append, not_or]
        refine ⟨hnew.2 other hother, ?_⟩
        intro hmem
        have heq : other.name = rule.name := by simpa [PlainRule.target] using hmem
        apply hnames.1
        rw [← heq]
        exact List.mem_map_of_mem hother
      rw [List.flatMap_cons, hread, ih _ _ hnames.2 hrest, hclosed, List.append_assoc]
      simp [PlainRule.targetsFrom]

end State

theorem assignments_plainRule (rule : PlainRule) : assignments rule.lines = [] := by
  apply List.filterMap_eq_nil_iff.mpr
  intro line hline
  rcases List.mem_cons.mp hline with rfl | hline
  · rw [rule.ofText_headerLine]
    rfl
  · obtain ⟨command, hcommand, rfl⟩ := List.mem_map.mp hline
    rw [(rule.command command hcommand).ofText_tab]
    rfl

theorem tableOf_writtenOut (plain : List PlainAssignment) (rules : List PlainRule) :
    tableOf (writtenOut plain rules) = .ofList (plain.map PlainAssignment.pair) := by
  have hplain : assignments (plain.map PlainAssignment.line) =
      plain.map PlainAssignment.pair := by
    unfold assignments
    rw [List.filterMap_map, ← List.filterMap_eq_map]
    apply List.filterMap_congr
    intro a _
    simp [a.ofText_line, Line.assignment?, PlainAssignment.pair]
  have hrules : assignments (rules.flatMap PlainRule.lines) = [] := by
    induction rules with
    | nil => rfl
    | cons rule rules ih =>
        rw [List.flatMap_cons, assignments_append, assignments_plainRule, ih]
        rfl
  rw [tableOf, writtenOut, assignments_append, hplain, hrules, List.append_nil]

theorem targetsOf_writtenOut (plain : List PlainAssignment) {rules : List PlainRule}
    (hnames : (rules.map PlainRule.name).Nodup) :
    targetsOf (writtenOut plain rules) =
      PlainRule.targetsFrom (tableOf (writtenOut plain rules)) (1 + plain.length) rules := by
  have hread := State.initial.readLines_plainAssignments 1 plain (rules.flatMap PlainRule.lines)
  rw [targetsOf_eq_closedTargets, writtenOut, hread,
    State.closedTargets_readLines_plainRules _ _ hnames (by simp [State.closedTargets,
      State.closeRule, State.initial])]
  rw [← writtenOut, tableOf_writtenOut]
  rfl

end Extraction

theorem PlainAssignment.get?_ofList (assignments : List PlainAssignment) (name : Text) :
    (Variables.ofList (assignments.map pair)).get? name = lastValue? assignments name := by
  rw [Variables.get?_ofList, Invocation.lastSetting?, lastValue?, ← List.map_reverse]
  induction assignments.reverse with
  | nil => rfl
  | cons first rest ih =>
      rw [List.map_cons, Invocation.lookup_cons_eq, List.find?_cons, ih]
      by_cases hname : first.name = name
      · simp [pair, hname]
      · simp [pair, beq_eq_false_iff_ne.mpr hname, Ne.symm hname]

theorem PlainRule.exists_headerLine_of_mem_targetsFrom {table : Variables} {number : Nat}
    {rules : List PlainRule} {target : Target} (hmem : target ∈ targetsFrom table number rules) :
    ∃ rule ∈ rules, target.name = rule.name ∧ number ≤ target.line ∧
      (rules.flatMap lines)[target.line - number]? = some rule.headerLine := by
  induction rules generalizing number with
  | nil => simp [targetsFrom] at hmem
  | cons rule rules ih =>
      rcases List.mem_cons.mp hmem with rfl | htail
      · refine ⟨rule, List.mem_cons_self, rfl, Nat.le_refl _, ?_⟩
        simp [PlainRule.target, lines]
      · obtain ⟨found, hfound, hname, hle, hline⟩ := ih htail
        have hindex : target.line - number =
            rule.lines.length + (target.line - (number + rule.lines.length)) := by
          omega
        refine ⟨found, List.mem_cons_of_mem _ hfound, hname, by omega, ?_⟩
        rw [List.flatMap_cons, hindex, List.getElem?_append_right (Nat.le_add_right _ _),
          Nat.add_sub_cancel_left, hline]

/-- What reading the lines that are written out gives. -/
structure ReadBack (assignments : List PlainAssignment) (rules : List PlainRule)
    (makefile : Makefile) : Prop where
  value : ∀ name, makefile.table.get? name = PlainAssignment.lastValue? assignments name
  targets : makefile.targets =
    PlainRule.targetsFrom makefile.table (1 + assignments.length) rules
  header : ∀ target ∈ makefile.targets, ∃ rule ∈ rules, target.name = rule.name ∧
    (writtenOut assignments rules)[target.line - 1]? = some rule.headerLine

theorem Makefile.ofLines_writtenOut (assignments : List PlainAssignment)
    (rules : List PlainRule) (hnames : (rules.map PlainRule.name).Nodup) :
    ReadBack assignments rules (ofLines (writtenOut assignments rules)) := by
  have htargets := Extraction.targetsOf_writtenOut assignments hnames
  constructor
  · intro name
    have htable := Extraction.tableOf_writtenOut assignments rules
    rw [ofLines, htable]
    exact PlainAssignment.get?_ofList assignments name
  · exact htargets
  · intro target hmem
    have hfrom : target ∈ PlainRule.targetsFrom
        (Extraction.tableOf (writtenOut assignments rules)) (1 + assignments.length) rules := by
      rw [← htargets]
      exact hmem
    obtain ⟨rule, hrule, hname, hle, hline⟩ :=
      PlainRule.exists_headerLine_of_mem_targetsFrom hfrom
    refine ⟨rule, hrule, hname, ?_⟩
    have hindex : target.line - 1 = (assignments.map PlainAssignment.line).length +
        (target.line - (1 + assignments.length)) := by
      rw [List.length_map]
      omega
    rw [writtenOut, hindex, List.getElem?_append_right (Nat.le_add_right _ _),
      Nat.add_sub_cancel_left, hline]

/-- A value, a command and a dependency before the last one end in a backslash, and a
command looks like a header. -/
theorem Makefile.ofLines_writtenOut_backslashes :
    ["all".toList, "x/y".toList].Nodup ∧
      ReadBack
        [⟨"DIR".toList, "a".toList, by decide, by decide⟩,
          ⟨"DIR".toList, "b \\".toList, by decide, by decide⟩]
        [⟨"all".toList, ["c:\\".toList, "x/y".toList], ["echo $(DIR)".toList, "x/y: \\".toList],
            by decide, List.all_eq_true.mp (by decide), by decide,
            by simp [isBlank, blankRanges, inRanges], by decide, by decide⟩,
          ⟨"x/y".toList, [], [], by decide, List.all_eq_true.mp (by decide), by decide, by simp,
            by decide, by decide⟩]
        (ofLines ["DIR = a".toList, "DIR = b \\".toList, "all: c:\\ x/y".toList,
          "\techo $(DIR)".toList, "\tx/y: \\".toList, "x/y:".toList]) := by
  have hnames : ["all".toList, "x/y".toList].Nodup := by decide
  exact ⟨hnames, ofLines_writtenOut _ _ hnames⟩

end MakeOutline
