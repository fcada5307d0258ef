import MakeOutline.Makefile.Basic
import MakeOutline.Proofs.LastValues
import MakeOutline.Proofs.Outline

/-!
# Swallowed lines

The pass for targets looks at the first line of each item, and the pass for
variables looks at every line.  So an assignment that stands further down in a
group is swallowed: it counts for the second pass alone.  But for swallowed lines
the two passes agree, and a command is expanded with what the second pass would
collect from the lines above it.
-/

namespace MakeOutline

namespace Item

/-- The lines of the items without those that stand second or later in an item. -/
def firstLines (items : List Item) : List Text := items.flatMap (·.lines.take 1)

theorem firstLines_sublist (items : List Item) :
    List.Sublist (firstLines items) (items.flatMap Item.lines) := by
  induction items with
  | nil => exact List.Sublist.refl []
  | cons item items ih => exact (List.take_sublist 1 item.lines).append ih

theorem assignment?_ofLine (number : Nat) (line : Text) :
    assignment? ⟨number, [line], .ofLine line⟩ = (Line.ofText line).assignment? := by
  unfold assignment? Meaning.ofLine
  cases Line.ofText line <;> rfl

theorem assignment?_ofGroup (number : Nat) (lines group : List Text) :
    assignment? ⟨number, lines, .ofGroup group⟩ = none := by
  unfold assignment? Meaning.ofGroup
  cases Header.ofLine? (Continuation.merge group) <;> rfl

theorem assignment?_of_startsGroup {ruleOpen : Bool} {line : Text}
    (hstarts : startsGroup ruleOpen line = true) : (Line.ofText line).assignment? = none := by
  unfold startsGroup at hstarts
  cases hkind : Line.ofText line <;> simp [hkind, Line.assignment?] at hstarts ⊢

/-- What the items assign is what their first lines assign. -/
theorem assignments_firstLines_ofLines (ruleOpen : Bool) (number : Nat) (lines : List Text) :
    Extraction.assignments (firstLines (ofLines ruleOpen number lines)) =
      (ofLines ruleOpen number lines).filterMap
        fun item => item.assignment?.map fun a => (a.name, a.value) := by
  fun_induction ofLines ruleOpen number lines with
  | case1 => rfl
  | case2 ruleOpen number line lines hstarts group meaning ih =>
      have hfirst : group.take 1 = [line] := by
        obtain ⟨more, hgroup⟩ : ∃ more, group = line :: more :=
          Continuation.exists_split_cons line lines
        rw [hgroup]
        rfl
      have hnone : assignment? ⟨number, group, meaning⟩ = none := assignment?_ofGroup _ _ _
      rw [firstLines, List.flatMap_cons, hfirst, List.singleton_append, ← firstLines,
        Extraction.assignments, List.filterMap_cons, List.filterMap_cons, hnone,
        assignment?_of_startsGroup hstarts]
      exact ih
  | case3 ruleOpen number line lines hstarts meaning ih =>
      have hsame : assignment? ⟨number, [line], meaning⟩ = (Line.ofText line).assignment? :=
        assignment?_ofLine _ _
      rw [firstLines, List.flatMap_cons, List.take_one, List.head?_cons, Option.toList_some,
        List.singleton_append, ← firstLines, Extraction.assignments, List.filterMap_cons,
        List.filterMap_cons, hsame]
      unfold Extraction.assignments at ih
      rw [ih]

theorem firstLines_ofLines_of_uncontinued (ruleOpen : Bool) (number : Nat) (lines : List Text)
    (hends : ∀ line ∈ lines, isContinued line = false) :
    firstLines (ofLines ruleOpen number lines) = lines := by
  fun_induction ofLines ruleOpen number lines with
  | case1 => rfl
  | case2 ruleOpen number line lines hstarts group meaning ih =>
      simp [startsGroup, hends line List.mem_cons_self] at hstarts
  | case3 ruleOpen number line lines hstarts meaning ih =>
      rw [firstLines, List.flatMap_cons, ← firstLines,
        ih fun other hmem => hends other (List.mem_cons_of_mem line hmem)]
      rfl

end Item

namespace Extraction

/-- The lines without those that a group takes besides its first one. -/
def unswallowed (lines : List Text) : List Text := Item.firstLines (Item.ofLines false 1 lines)

theorem unswallowed_of_uncontinued {lines : List Text}
    (hends : ∀ line ∈ lines, isContinued line = false) : unswallowed lines = lines :=
  Item.firstLines_ofLines_of_uncontinued false 1 lines hends

theorem unswallowed_sublist (lines : List Text) : List.Sublist (unswallowed lines) lines := by
  have hsublist := Item.firstLines_sublist (Item.ofLines false 1 lines)
  rw [Item.flatMap_lines_ofLines] at hsublist
  exact hsublist

-- The header goes on, so its group takes the assignment below it.
example : unswallowed ["all: a \\".toList, "X = 1".toList, "\techo $(X)".toList] =
    ["all: a \\".toList, "\techo $(X)".toList] := by
  cbv

end Extraction

/-! ## What stands above an item -/

/-- The commands down to the next header, each with the number of its line. -/
def Place.recipeLines (place : Place) : List (Nat × Text) :=
  ((Layout.places (place.above ++ [place.item]) place.below).takeWhile
    (·.item.header?.isNone)).filterMap fun below =>
      below.item.command?.map fun text => (below.item.line, text)

namespace Layout

variable {lines : List Text} {place : Place}

theorem lines_above_eq_take (hmem : place ∈ places [] (Item.ofLines false 1 lines)) :
    place.above.flatMap Item.lines = lines.take (place.item.line - 1) := by
  have hlines := Item.flatMap_lines_ofLines false 1 lines
  rw [← mem_places_nil_iff.mp hmem, List.flatMap_append] at hlines
  rw [(isLayout_ofLines lines).numbered place hmem, lineCount, Nat.add_sub_cancel]
  conv_rhs => rw [← hlines]
  exact List.take_left.symm

theorem above_eq_ofLines (hmem : place ∈ places [] (Item.ofLines false 1 lines)) :
    place.above = Item.ofLines false 1 (lines.take (place.item.line - 1)) := by
  rw [← lines_above_eq_take hmem]
  exact (Item.ofLines_flatMap_of_append false 1 lines place.above _
    (mem_places_nil_iff.mp hmem).symm).symm

theorem table_above_eq_tableOf (hmem : place ∈ places [] (Item.ofLines false 1 lines)) :
    table place.above =
      Extraction.tableOf (Extraction.unswallowed (lines.take (place.item.line - 1))) := by
  rw [Extraction.tableOf, Extraction.unswallowed, Item.assignments_firstLines_ofLines,
    ← above_eq_ofLines hmem, table]

theorem exists_line_of_command {text : Text}
    (hmem : place ∈ places [] (Item.ofLines false 1 lines))
    (hmeaning : place.item.meaning = .command text) :
    ∃ line, lines[place.item.line - 1]? = some line ∧ Line.ofText line = .command text := by
  cases (isLayout_ofLines lines).proper place hmem with
  | single line hlines hopening hline =>
      refine ⟨line, ?_, ?_⟩
      · have hall := Item.flatMap_lines_ofLines false 1 lines
        rw [← mem_places_nil_iff.mp hmem, List.flatMap_append, List.flatMap_cons,
          hlines] at hall
        rw [(isLayout_ofLines lines).numbered place hmem, lineCount, Nat.add_sub_cancel, ← hall]
        simp
      · rw [hmeaning] at hline
        unfold Meaning.ofLine at hline
        cases hkind : Line.ofText line <;> simp [hkind] at hline
        rw [hline]
  | group line more hlines hopening hchained hends hgroup =>
      rw [hmeaning] at hgroup
      unfold Meaning.ofGroup at hgroup
      cases hread : Header.ofLine? (Continuation.merge (line :: more)) <;> simp [hread] at hgroup

theorem mem_places_of_mem_below {items : List Item} {below : Place}
    (hmem : place ∈ places [] items)
    (hbelow : below ∈ places (place.above ++ [place.item]) place.below) :
    below ∈ places [] items := by
  have happend := append_of_mem_places hbelow
  rw [List.append_assoc, List.singleton_append, mem_places_nil_iff.mp hmem] at happend
  exact mem_places_nil_iff.mpr happend

theorem recipe_eq_map_recipeLines (hmem : place ∈ places [] (Item.ofLines false 1 lines)) :
    place.recipe = place.recipeLines.map fun (number, text) =>
      (Extraction.tableOf (Extraction.unswallowed (lines.take (number - 1))), text) := by
  unfold Place.recipe Place.recipeLines commandsBelow
  rw [List.map_filterMap]
  apply List.filterMap_congr
  intro below hbelow
  have hplace := mem_places_of_mem_below hmem ((List.takeWhile_sublist _).subset hbelow)
  rw [table_above_eq_tableOf hplace, Option.map_map]
  rfl

end Layout

/-! ## The two passes -/

namespace Extraction

/-- Below the items `above` the rule of `draft` is open and gets the command of `item`. -/
structure Recorded (lines : List Text) (above : List Item) (item : Item)
    (draft : Target.Draft) (text : Text) : Prop where
  cut : ∃ rest, Item.ofLines false 1 lines = above ++ item :: rest
  command : item.meaning = .command text
  draft_eq : (State.below above).draft? = some draft

/-- How the pass for targets knows variables, said with the pass for variables. -/
structure PassesAgree (lines : List Text) : Prop where
  line : ∀ above item draft text, Recorded lines above item draft text →
    ∃ line, lines[item.line - 1]? = some line ∧ Line.ofText line = .command text
  recipe : ∀ above item draft text, Recorded lines above item draft text →
    ∃ later, (State.below (above ++ [item])).draft? = some later ∧
      later.recipe = draft.recipe ++ [(State.below above).table.expand text]
  unswallowed : ∀ above item draft text, Recorded lines above item draft text →
    unswallowed (lines.take (item.line - 1)) = Item.firstLines above
  table : ∀ above item draft text, Recorded lines above item draft text →
    (State.below above).table = tableOf (Extraction.unswallowed (lines.take (item.line - 1)))
  commands : ∀ target ∈ targetsOf lines,
    ∃ place ∈ Layout.places [] (Item.ofLines false 1 lines), place.definition? = some target ∧
      target.commands = Text.joinedBy ['\n'] (place.recipeLines.map fun (number, text) =>
        (tableOf (Extraction.unswallowed (lines.take (number - 1)))).expand text)
  known : ∀ above rest name, Item.ofLines false 1 lines = above ++ rest →
    (State.below above).table.contains name = true →
      (Makefile.ofLines lines).table.contains name = true
  uncontinued : (∀ line ∈ lines, isContinued line = false) →
    (∀ above item draft text, Recorded lines above item draft text →
      ∃ later, (State.below (above ++ [item])).draft? = some later ∧
        later.recipe = draft.recipe ++ [(tableOf (lines.take (item.line - 1))).expand text]) ∧
    (State.initial.readLines 1 lines).table = (Makefile.ofLines lines).table

section

variable {lines : List Text} {above : List Item} {item : Item} {draft : Target.Draft}
  {text : Text}

theorem Recorded.exists_place (hrecorded : Recorded lines above item draft text) :
    ∃ place ∈ Layout.places [] (Item.ofLines false 1 lines),
      place.above = above ∧ place.item = item := by
  obtain ⟨rest, hcut⟩ := hrecorded.cut
  exact ⟨⟨above, item, rest⟩, Layout.mem_places_nil_iff.mpr hcut.symm, rfl, rfl⟩

theorem Recorded.table_eq (hrecorded : Recorded lines above item draft text) :
    (State.below above).table = tableOf (unswallowed (lines.take (item.line - 1))) := by
  obtain ⟨place, hmem, rfl, rfl⟩ := hrecorded.exists_place
  rw [Layout.table_below, Layout.table_above_eq_tableOf hmem]

theorem Recorded.exists_later (hrecorded : Recorded lines above item draft text) :
    ∃ later, (State.below (above ++ [item])).draft? = some later ∧
      later.recipe = draft.recipe ++ [(State.below above).table.expand text] := by
  refine ⟨draft.addCommand (State.below above).table text, ?_, rfl⟩
  rw [State.below_append_singleton, State.step_of_command _ hrecorded.command,
    hrecorded.draft_eq]
  rfl

end

theorem table_readLines (lines : List Text) :
    (State.initial.readLines 1 lines).table = tableOf (unswallowed lines) := by
  rw [tableOf, unswallowed, Item.assignments_firstLines_ofLines]
  exact Layout.table_below (Item.ofLines false 1 lines)

theorem contains_tableOf_of_sublist {first second : List Text} {name : Text}
    (hsublist : List.Sublist first second) (hcontains : (tableOf first).contains name = true) :
    (tableOf second).contains name = true := by
  rw [tableOf, Variables.contains_ofList] at hcontains ⊢
  have hassign : List.Sublist (assignments first) (assignments second) :=
    hsublist.filterMap _
  exact (hassign.map Prod.fst).subset hcontains

theorem contains_tableOf_of_below {lines : List Text} {above rest : List Item} {name : Text}
    (hcut : Item.ofLines false 1 lines = above ++ rest)
    (hcontains : (State.below above).table.contains name = true) :
    (tableOf lines).contains name = true := by
  have hprefix : above.flatMap Item.lines <+: lines := by
    have hlines := Item.flatMap_lines_ofLines false 1 lines
    rw [hcut, List.flatMap_append] at hlines
    exact ⟨_, hlines⟩
  rw [State.below_eq_readLines hcut, table_readLines] at hcontains
  exact contains_tableOf_of_sublist ((unswallowed_sublist _).trans hprefix.sublist) hcontains

/-- A command is expanded with what is assigned above it on lines that no group
swallows, and so with what is assigned above it at all if no line goes on. -/
theorem passesAgree (lines : List Text) : PassesAgree lines := by
  constructor
  · intro above item draft text hrecorded
    obtain ⟨place, hmem, _, rfl⟩ := hrecorded.exists_place
    exact Layout.exists_line_of_command hmem hrecorded.command
  · exact fun above item draft text => Recorded.exists_later
  · intro above item draft text hrecorded
    obtain ⟨place, hmem, rfl, rfl⟩ := hrecorded.exists_place
    rw [Extraction.unswallowed, ← Layout.above_eq_ofLines hmem]
  · exact fun above item draft text => Recorded.table_eq
  · intro target htarget
    obtain ⟨place, hmem, hdefinition⟩ := Layout.exists_place_of_mem_targetsOf htarget
    refine ⟨place, hmem, hdefinition, ?_⟩
    obtain ⟨header, _, _, rfl⟩ := Place.exists_header_of_definition? hdefinition
    rw [Layout.recipe_eq_map_recipeLines hmem, List.map_map]
    rfl
  · exact fun above rest name => contains_tableOf_of_below
  · intro hends
    constructor
    · intro above item draft text hrecorded
      obtain ⟨later, hlater, hrecipe⟩ := hrecorded.exists_later
      refine ⟨later, hlater, ?_⟩
      rw [hrecipe, hrecorded.table_eq, unswallowed_of_uncontinued]
      exact fun line hmem => hends line (List.mem_of_mem_take hmem)
    · rw [table_readLines, unswallowed_of_uncontinued hends]
      rfl

end Extraction

end MakeOutline
