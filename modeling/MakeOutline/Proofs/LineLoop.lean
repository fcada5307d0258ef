import Mathlib.Data.List.Forall2
import Mathlib.Data.Nat.PSub
import MakeOutline.Proofs.Runs

/-!
# Reading lines by their position

The lines are read in turns.  A turn looks at the line at its position and takes this line,
or the group that starts there, and the next turn starts behind what was taken.  A turn that
asked for a line that is not there, or for fewer lines than none, would fail.  None does, so
the turns end with the lines, and every line is taken once.
-/

namespace MakeOutline

/-! ## The group at a position -/

namespace Continuation

/-- Goes on with a group of which `count` lines were taken, with `text` for their text. -/
def gatherFrom (count : Nat) (text : Text) : List Text → Text × Nat
  | [] => (text, count)
  | line :: lines =>
    let longer := (if count = 0 then text else text ++ [' ']) ++ line.dropTrailing (· == '\\')
    if isContinued line then gatherFrom (count + 1) longer lines else (longer, count + 1)

/-- The text of the group at the front of the lines, and how many lines it has. -/
def gather (lines : List Text) : Text × Nat := gatherFrom 0 [] lines

/-- The line without the backslashes at its end. -/
def Stripped (line text : Text) : Prop :=
  isContinued text = false ∧ ∃ count, line = text ++ List.replicate count '\\'

structure GathersGroup (lines : List Text) (text : Text) (count : Nat) : Prop where
  one_le : 1 ≤ count
  le_length : count ≤ lines.length
  continued : ∀ line ∈ lines.take (count - 1), isContinued line = true
  ends : count = lines.length ∨
    ∃ line, lines[count - 1]? = some line ∧ isContinued line = false
  text_eq : ∃ pieces, List.Forall₂ Stripped (lines.take count) pieces ∧
    text = Text.joinedBy [' '] pieces
  not_continued : isContinued text = false

theorem stripped_dropTrailing (line : Text) : Stripped line (line.dropTrailing (· == '\\')) := by
  constructor
  · rw [← merge_singleton]
    exact isContinued_merge [line]
  · have hrun : line.reverse.takeWhile (· == '\\') =
        List.replicate (line.reverse.takeWhile (· == '\\')).length '\\' := by
      apply List.eq_replicate_of_mem
      intro c hc
      simpa using List.mem_takeWhile_imp hc
    refine ⟨(line.reverse.takeWhile (· == '\\')).length, ?_⟩
    rw [Text.dropTrailing, ← List.reverse_replicate, ← hrun, ← List.reverse_append,
      List.takeWhile_append_dropWhile, List.reverse_reverse]

theorem gatherFrom_cons (count : Nat) (text line : Text) (lines : List Text) :
    gatherFrom count text (line :: lines) =
      ((if count = 0 then text else text ++ [' ']) ++ merge (split (line :: lines)).1,
        count + (split (line :: lines)).1.length) := by
  induction lines generalizing count text line with
  | nil => cases hline : isContinued line <;> simp [gatherFrom, split, hline, merge_singleton]
  | cons next rest ih =>
      cases hline : isContinued line with
      | false => simp [gatherFrom, split_of_ends _ hline, hline, merge_singleton]
      | true =>
          obtain ⟨more, hgroup⟩ := exists_split_cons next rest
          rw [gatherFrom, if_pos hline, ih, if_neg (Nat.succ_ne_zero count),
            split_of_continued _ hline]
          simp only [hgroup, merge_cons_cons, List.append_assoc, List.singleton_append,
            List.length_cons]
          rw [Nat.add_assoc count, Nat.add_comm 1]

theorem gather_eq (lines : List Text) :
    gather lines = (merge (split lines).1, (split lines).1.length) := by
  cases lines with
  | nil => rfl
  | cons line lines =>
      rw [gather, gatherFrom_cons, if_pos rfl, List.nil_append, Nat.zero_add]

theorem gathersGroup_of_chained {group : List Text} (rest : List Text) (hne : group ≠ [])
    (hchained : Chained group) (hends : Complete group ∨ rest = []) :
    GathersGroup (group ++ rest) (merge group) group.length := by
  have hone : 1 ≤ group.length := List.length_pos_iff.mpr hne
  constructor
  · exact hone
  · rw [List.length_append]
    exact Nat.le_add_right _ _
  · rw [List.take_append_of_le_length (Nat.sub_le _ 1), ← List.dropLast_eq_take]
    exact hchained
  · rcases hends with hcomplete | rfl
    · right
      obtain ⟨line, hlast⟩ := Option.isSome_iff_exists.mp (List.getLast?_isSome.mpr hne)
      refine ⟨line, ?_, hcomplete line hlast⟩
      rw [List.getElem?_append_left (Nat.sub_lt hone Nat.one_pos), ← List.getLast?_eq_getElem?]
      exact hlast
    · left
      rw [List.append_nil]
  · refine ⟨_, ?_, rfl⟩
    rw [List.take_left, List.forall₂_map_right_iff, List.forall₂_same]
    exact fun line _ => stripped_dropTrailing line
  · exact isContinued_merge group

/-- The lines that are gathered are those of one group, and their text is its merged text. -/
theorem gathersGroup_gather (line : Text) (lines : List Text) :
    GathersGroup (line :: lines) (gather (line :: lines)).1 (gather (line :: lines)).2 := by
  have hgathers := gathersGroup_of_chained (split (line :: lines)).2 (split_cons_ne_nil line lines)
    (chained_split (line :: lines)) (complete_split_or_eq_nil (line :: lines))
  rw [split_append] at hgathers
  rw [gather_eq]
  exact hgathers

-- The first line is all backslashes, and the last one goes on where nothing follows.
example : gather ["\\\\".toList, "a \\".toList] = (" a ".toList, 2) := by
  cbv

end Continuation

/-! ## Turns -/

namespace Extraction

/-- How many lines are read, and what they leave. -/
structure Cursor where
  position : Nat
  state : State

/-- The lines from a position on, unless the position is behind the end. -/
def linesFrom? (lines : List Text) (position : Nat) : Option (List Text) :=
  if position ≤ lines.length then some (lines.drop position) else none

namespace Cursor

/-- Takes the group whose first line stands in front of the position. -/
def takeGroup? (lines : List Text) (cursor : Cursor) : Option Cursor := do
  let start ← cursor.position.ppred
  let (text, count) := Continuation.gather (← linesFrom? lines start)
  let others ← count.ppred
  match Header.ofLine? text with
  | some header =>
    some ⟨cursor.position + others, cursor.state.startRule header cursor.position⟩
  | none => some ⟨cursor.position + others, cursor.state⟩

/-- Takes the line at the position, and its group if it starts one. -/
def turn? (lines : List Text) (cursor : Cursor) : Option Cursor := do
  let line ← lines[cursor.position]?
  let next := cursor.position + 1
  let passed : Cursor := ⟨next, cursor.state⟩
  match Line.ofText line, cursor.state.draft? with
  | .blank, _ => some passed
  | .assignment a, _ =>
    some ⟨next, { cursor.state with table := cursor.state.table.assign a.name a.value }⟩
  | .header header, _ => some ⟨next, cursor.state.startRule header next⟩
  | .command text, some draft =>
    some ⟨next, { cursor.state with draft? := some (draft.addCommand cursor.state.table text) }⟩
  | .command _, none | .other, _ =>
    if isContinued line then passed.takeGroup? lines else some passed

end Cursor

/-- Turns are taken as long as the position is in front of a line.  They are told by the lines
between their positions. -/
inductive ReadsThrough (lines : List Text) : Cursor → List (List Text) → Cursor → Prop
  | stop {cursor : Cursor} (hend : lines.length ≤ cursor.position) :
    ReadsThrough lines cursor [] cursor
  | turn {cursor next last : Cursor} {runs : List (List Text)}
      (hlt : cursor.position < lines.length) (hturn : cursor.turn? lines = some next)
      (hrest : ReadsThrough lines next runs last) :
    ReadsThrough lines cursor
      ((lines.drop cursor.position).take (next.position - cursor.position) :: runs) last

/-! ## What a turn takes -/

theorem linesFrom?_append (above below : List Text) :
    linesFrom? (above ++ below) above.length = some below := by
  have hle : above.length ≤ (above ++ below).length := by simp
  rw [linesFrom?, if_pos hle, List.drop_left]

namespace Cursor

theorem takeGroup?_append (above below : List Text) (line : Text) (state : State) :
    takeGroup? (above ++ line :: below) ⟨above.length + 1, state⟩ =
      some ⟨above.length + (Continuation.split (line :: below)).1.length,
        state.step ⟨above.length + 1, (Continuation.split (line :: below)).1,
          .ofGroup (Continuation.split (line :: below)).1⟩⟩ := by
  obtain ⟨more, hgroup⟩ := Continuation.exists_split_cons line below
  cases hread : Header.ofLine? (Continuation.merge (line :: more)) <;>
    simp [takeGroup?, linesFrom?_append, Continuation.gather_eq, hgroup, Meaning.ofGroup, hread,
      State.step, Nat.add_assoc, Nat.add_comm 1]

theorem turn?_of_startsGroup (above below : List Text) {line : Text} {state : State}
    (hstarts : Item.startsGroup state.ruleOpen line = true) :
    turn? (above ++ line :: below) ⟨above.length, state⟩ =
      some ⟨above.length + (Continuation.split (line :: below)).1.length,
        state.step ⟨above.length + 1, (Continuation.split (line :: below)).1,
          .ofGroup (Continuation.split (line :: below)).1⟩⟩ := by
  rw [← takeGroup?_append]
  obtain ⟨hcontinued, hkind⟩ := Bool.and_eq_true_iff.mp hstarts
  cases hline : Line.ofText line with
  | other => simp [turn?, hline, hcontinued]
  | command text =>
      have hdraft : state.draft? = none := by
        simpa [hline, State.ruleOpen] using hkind
      simp [turn?, hline, hcontinued, hdraft]
  | blank | assignment a | header header => simp [hline] at hkind

theorem turn?_of_not_startsGroup (above below : List Text) {line : Text} {state : State}
    (hstarts : Item.startsGroup state.ruleOpen line = false) :
    turn? (above ++ line :: below) ⟨above.length, state⟩ =
      some ⟨above.length + 1, state.step ⟨above.length + 1, [line], .ofLine line⟩⟩ := by
  unfold Item.startsGroup at hstarts
  cases hline : Line.ofText line with
  | blank => simp [turn?, hline, State.step, Meaning.ofLine]
  | assignment a => simp [turn?, hline, State.step, Meaning.ofLine]
  | header header => simp [turn?, hline, State.step, Meaning.ofLine]
  | command text =>
      cases hdraft : state.draft? with
      | some draft => simp [turn?, hline, hdraft, State.step, Meaning.ofLine]
      | none =>
          have hends : isContinued line = false := by
            simpa [hline, hdraft, State.ruleOpen] using hstarts
          have hstep : state.step ⟨above.length + 1, [line], .command text⟩ = state := by
            rw [State.step_of_command state rfl, hdraft, Option.map_none, ← hdraft]
          simp [turn?, hline, hdraft, hends, Meaning.ofLine, hstep]
  | other =>
      have hends : isContinued line = false := by simpa [hline] using hstarts
      simp [turn?, hline, hends, State.step, Meaning.ofLine]

/-- A turn in front of a line succeeds, moves on, and does not move behind the end. -/
theorem exists_turn? {lines : List Text} {cursor : Cursor}
    (hlt : cursor.position < lines.length) :
    ∃ next, cursor.turn? lines = some next ∧ cursor.position < next.position ∧
      next.position ≤ lines.length := by
  obtain ⟨position, state⟩ := cursor
  obtain ⟨above, line, below, rfl, rfl⟩ : ∃ above line below,
      lines = above ++ line :: below ∧ above.length = position := by
    refine ⟨lines.take position, lines[position], lines.drop (position + 1), ?_, ?_⟩
    · rw [← List.drop_eq_getElem_cons hlt, List.take_append_drop]
    · exact List.length_take_of_le (Nat.le_of_lt hlt)
  rw [List.length_append]
  cases hstarts : Item.startsGroup state.ruleOpen line with
  | true =>
      have hgathers := Continuation.gathersGroup_gather line below
      rw [Continuation.gather_eq] at hgathers
      refine ⟨_, turn?_of_startsGroup above below hstarts, ?_, ?_⟩
      · exact Nat.lt_add_of_pos_right hgathers.one_le
      · exact Nat.add_le_add_left hgathers.le_length _
  | false =>
      refine ⟨_, turn?_of_not_startsGroup above below hstarts, Nat.lt_succ_self _, ?_⟩
      simp

end Cursor

/-! ## The turns together -/

namespace ReadsThrough

variable {lines : List Text} {cursor last : Cursor} {runs : List (List Text)}

theorem unique {last' : Cursor} {runs' : List (List Text)}
    (hreads : ReadsThrough lines cursor runs last)
    (hreads' : ReadsThrough lines cursor runs' last') : runs' = runs ∧ last' = last := by
  induction hreads generalizing runs' with
  | stop hend =>
      cases hreads' with
      | stop => exact ⟨rfl, rfl⟩
      | turn hlt => exact absurd hlt (Nat.not_lt.mpr hend)
  | turn hlt hturn hrest ih =>
      cases hreads' with
      | stop hend => exact absurd hlt (Nat.not_lt.mpr hend)
      | turn hlt' hturn' hrest' =>
          rw [hturn] at hturn'
          obtain rfl := Option.some.inj hturn'
          obtain ⟨rfl, rfl⟩ := ih hrest'
          exact ⟨rfl, rfl⟩

/-- What is read from a position on is cut into pieces that are not empty. -/
theorem partition (hreads : ReadsThrough lines cursor runs last)
    (hle : cursor.position ≤ lines.length) :
    last.position = lines.length ∧ runs.flatten = lines.drop cursor.position ∧
      ∀ run ∈ runs, run ≠ [] := by
  induction hreads with
  | stop hend =>
      refine ⟨Nat.le_antisymm hle hend, ?_, by simp⟩
      rw [List.drop_eq_nil_of_le hend, List.flatten_nil]
  | @turn cursor next last runs hlt hturn hrest ih =>
      obtain ⟨next', hturn', hgrows, hbounded⟩ := Cursor.exists_turn? hlt
      rw [hturn] at hturn'
      obtain rfl := Option.some.inj hturn'
      obtain ⟨hend, hflatten, hnonempty⟩ := ih hbounded
      have hbehind : lines.drop next.position =
          (lines.drop cursor.position).drop (next.position - cursor.position) := by
        rw [List.drop_drop, Nat.add_sub_cancel' (Nat.le_of_lt hgrows)]
      refine ⟨hend, ?_, ?_⟩
      · rw [List.flatten_cons, hflatten, hbehind, List.take_append_drop]
      · rw [List.forall_mem_cons]
        refine ⟨?_, hnonempty⟩
        intro hnil
        have hlength := congrArg List.length hnil
        rw [List.length_take, List.length_drop, List.length_nil] at hlength
        omega

/-- A turn that takes the lines behind `above`, and the turns that take the lines behind these. -/
theorem turn_append {above run below : List Text} {state next : State}
    (hlines : above ++ run ++ below = lines) (hne : run ≠ [])
    (hturn : Cursor.turn? lines ⟨above.length, state⟩ = some ⟨above.length + run.length, next⟩)
    (hrest : ReadsThrough lines ⟨(above ++ run).length, next⟩ runs last) :
    ReadsThrough lines ⟨above.length, state⟩ (run :: runs) last := by
  have hpos : 0 < run.length := List.length_pos_iff.mpr hne
  have hlt : above.length < lines.length := by
    rw [← hlines, List.length_append, List.length_append]
    omega
  have hrun : (lines.drop above.length).take (above.length + run.length - above.length) =
      run := by
    rw [← hlines, List.append_assoc, List.drop_left, Nat.add_sub_cancel_left, List.take_left]
  rw [List.length_append] at hrest
  have hreads := ReadsThrough.turn hlt hturn hrest
  simp only [hrun] at hreads
  exact hreads

end ReadsThrough

/-- The turns take the items of the lines, one after the other. -/
theorem readsThrough_ofLines (ruleOpen : Bool) (number : Nat) (lines : List Text) :
    ∀ (state : State) (above : List Text), state.ruleOpen = ruleOpen →
      above.length + 1 = number →
      ReadsThrough (above ++ lines) ⟨above.length, state⟩
        ((Item.ofLines ruleOpen number lines).map Item.lines)
        ⟨(above ++ lines).length,
          (Item.ofLines ruleOpen number lines).foldl State.step state⟩ := by
  fun_induction Item.ofLines ruleOpen number lines with
  | case1 ruleOpen number =>
      intro state above _ _
      rw [List.append_nil]
      exact .stop (Nat.le_refl _)
  | case2 ruleOpen number line lines hstarts group meaning ih =>
      rintro state above rfl rfl
      have hlines : above ++ group ++ (Continuation.split (line :: lines)).2 =
          above ++ line :: lines := by
        rw [List.append_assoc, Continuation.split_append]
      have htail := ih (state.step ⟨above.length + 1, group, meaning⟩) (above ++ group)
        (state.ruleOpen_step _) (by rw [List.length_append, Nat.add_right_comm])
      rw [hlines] at htail
      exact .turn_append hlines (Continuation.split_cons_ne_nil line lines)
        (Cursor.turn?_of_startsGroup above lines hstarts) htail
  | case3 ruleOpen number line lines hstarts meaning ih =>
      rintro state above rfl rfl
      have hlines : above ++ [line] ++ lines = above ++ line :: lines := List.append_assoc _ _ _
      have htail := ih (state.step ⟨above.length + 1, [line], meaning⟩) (above ++ [line])
        (state.ruleOpen_step _) (by rw [List.length_append]; rfl)
      rw [hlines] at htail
      exact .turn_append hlines (List.cons_ne_nil line [])
        (Cursor.turn?_of_not_startsGroup above lines (by simpa using hstarts)) htail

/-- How the turns read the lines. -/
structure ReadsOnce (lines : List Text) : Prop where
  inRange : ∀ position, position < lines.length →
    ∃ line rest, lines[position]? = some line ∧ linesFrom? lines position = some (line :: rest)
  turn : ∀ cursor : Cursor, cursor.position < lines.length →
    ∃ next, cursor.turn? lines = some next ∧ cursor.position < next.position ∧
      next.position ≤ lines.length
  ends : ∀ state, ∃ runs,
    ReadsThrough lines ⟨0, state⟩ runs ⟨lines.length, state.readLines 1 lines⟩
  once : ∀ state runs last, ReadsThrough lines ⟨0, state⟩ runs last →
    last = ⟨lines.length, state.readLines 1 lines⟩ ∧ runs.flatten = lines ∧
      ∀ run ∈ runs, run ≠ []

theorem readsOnce (lines : List Text) : ReadsOnce lines := by
  have hreads : ∀ state : State, ReadsThrough lines ⟨0, state⟩
      ((Item.ofLines state.ruleOpen 1 lines).map Item.lines)
      ⟨lines.length, state.readLines 1 lines⟩ :=
    fun state => readsThrough_ofLines state.ruleOpen 1 lines state [] rfl rfl
  constructor
  · intro position hlt
    refine ⟨lines[position], lines.drop (position + 1), List.getElem?_eq_getElem hlt, ?_⟩
    rw [linesFrom?, if_pos (Nat.le_of_lt hlt), List.drop_eq_getElem_cons hlt]
  · exact fun cursor => Cursor.exists_turn?
  · exact fun state => ⟨_, hreads state⟩
  · intro state runs last hother
    obtain ⟨_, hflatten, hnonempty⟩ := hother.partition (Nat.zero_le _)
    exact ⟨((hreads state).unique hother).2, hflatten, hnonempty⟩

/-- A group is gathered from at least one line and not from more than there are, and the turns
that take single lines and groups take every line once and leave what reading them leaves. -/
theorem gathersGroup_and_readsOnce (line : Text) (more lines : List Text) :
    Continuation.gather lines =
        (Continuation.merge (Continuation.split lines).1, (Continuation.split lines).1.length) ∧
      Continuation.GathersGroup (line :: more) (Continuation.gather (line :: more)).1
        (Continuation.gather (line :: more)).2 ∧
      ReadsOnce lines :=
  ⟨Continuation.gather_eq lines, Continuation.gathersGroup_gather line more, readsOnce lines⟩

end Extraction

end MakeOutline
