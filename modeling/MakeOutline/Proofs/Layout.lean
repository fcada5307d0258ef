import MakeOutline.Proofs.Items

/-!
# The layout of a makefile

A layout says of each item what it is by what stands above it and below it, with
no order of reading: a line is on its own unless it opens a group, and a group
runs to the first line that does not go on.  Every list of lines has exactly one
layout, and its items are those that cutting from the top gives.
-/

namespace MakeOutline

/-- An item among the items above it and those below it. -/
structure Place where
  above : List Item
  item : Item
  below : List Item

namespace Layout

/-- The places of items that stand below those of `above`. -/
def places (above : List Item) : List Item → List Place
  | [] => []
  | item :: below => ⟨above, item, below⟩ :: places (above ++ [item]) below

def lineCount (items : List Item) : Nat := (items.flatMap Item.lines).length

/-- The nearest header above is that of a rule, and not of a directive. -/
def UnderRule (above : List Item) : Prop :=
  ∃ header, (above.filterMap Item.header?).getLast? = some header ∧
    Target.isSpecial header.name = false

/-- The line goes on and is nothing on its own, or a command of no rule. -/
def OpensGroup (above : List Item) (line : Text) : Prop :=
  isContinued line = true ∧
    (Line.ofText line = .other ∨
      (∃ text, Line.ofText line = .command text) ∧ ¬ UnderRule above)

end Layout

inductive Place.Proper (place : Place) : Prop where
  | single (line : Text)
      (lines_eq : place.item.lines = [line])
      (notOpening : ¬ Layout.OpensGroup place.above line)
      (meaning_eq : place.item.meaning = .ofLine line)
  | group (line : Text) (more : List Text)
      (lines_eq : place.item.lines = line :: more)
      (opening : Layout.OpensGroup place.above line)
      (chained : Continuation.Chained (line :: more))
      (ends : Continuation.Complete (line :: more) ∨ place.below = [])
      (meaning_eq : place.item.meaning = .ofGroup (line :: more))

/-- A header is read from a line of its own or from the merged text of a group. -/
theorem Place.Proper.exists_ofLine?_of_header {place : Place} {header : Header}
    (hproper : place.Proper) (hmeaning : place.item.meaning = .header header) :
    ∃ text, Header.ofLine? text = some header ∧
      (place.item.lines = [text] ∨ Continuation.merge place.item.lines = text) := by
  cases hproper with
  | single line hlines hopening hline =>
      rw [hmeaning] at hline
      unfold Meaning.ofLine at hline
      cases hkind : Line.ofText line <;> simp [hkind] at hline
      rw [← hline] at hkind
      exact ⟨line, Line.header_of_ofText hkind, .inl hlines⟩
  | group line more hlines hopening hchained hends hgroup =>
      rw [hmeaning] at hgroup
      unfold Meaning.ofGroup at hgroup
      cases hread : Header.ofLine? (Continuation.merge (line :: more)) <;> simp [hread] at hgroup
      rw [← hgroup] at hread
      exact ⟨_, hread, .inr (congrArg Continuation.merge hlines)⟩

structure IsLayout (lines : List Text) (items : List Item) : Prop where
  lines_eq : items.flatMap Item.lines = lines
  numbered : ∀ place ∈ Layout.places [] items,
    place.item.line = Layout.lineCount place.above + 1
  proper : ∀ place ∈ Layout.places [] items, place.Proper

namespace Layout

theorem lineCount_append_singleton (above : List Item) (item : Item) :
    lineCount (above ++ [item]) = lineCount above + item.lines.length := by
  simp [lineCount]

theorem places_cons (above below : List Item) (item : Item) :
    places above (item :: below) = ⟨above, item, below⟩ :: places (above ++ [item]) below :=
  rfl

theorem mem_places_append (above first below : List Item) (item : Item) :
    ⟨above ++ first, item, below⟩ ∈ places above (first ++ item :: below) := by
  induction first generalizing above with
  | nil =>
      rw [List.append_nil, List.nil_append, places_cons]
      exact List.mem_cons_self
  | cons next first ih =>
      rw [List.cons_append, places_cons]
      apply List.mem_cons_of_mem
      simpa using ih (above ++ [next])

theorem append_of_mem_places {above items : List Item} {place : Place}
    (hmem : place ∈ places above items) :
    place.above ++ place.item :: place.below = above ++ items := by
  induction items generalizing above with
  | nil => simp [places] at hmem
  | cons item below ih =>
      rw [places_cons] at hmem
      rcases List.mem_cons.mp hmem with rfl | htail
      · rfl
      · rw [ih htail, List.append_assoc, List.singleton_append]

theorem mem_places_nil_iff {items : List Item} {place : Place} :
    place ∈ places [] items ↔ place.above ++ place.item :: place.below = items := by
  constructor
  · exact append_of_mem_places
  · intro happend
    rw [← happend]
    exact mem_places_append [] place.above place.below place.item

theorem false_iff_underRule_nil : false = true ↔ UnderRule [] := by
  simp [UnderRule]

/-- Whether a rule is open hangs on the nearest header alone. -/
theorem ruleOpenAfter_iff_underRule {above : List Item} {ruleOpen : Bool}
    (hopen : ruleOpen = true ↔ UnderRule above) (item : Item) :
    item.meaning.ruleOpenAfter ruleOpen = true ↔ UnderRule (above ++ [item]) := by
  cases hmeaning : item.meaning with
  | header header =>
      simp [Meaning.ruleOpenAfter, UnderRule, Item.header?, hmeaning]
  | nothing => simpa [Meaning.ruleOpenAfter, UnderRule, Item.header?, hmeaning] using hopen
  | assignment a => simpa [Meaning.ruleOpenAfter, UnderRule, Item.header?, hmeaning] using hopen
  | command text => simpa [Meaning.ruleOpenAfter, UnderRule, Item.header?, hmeaning] using hopen
  | dropped merged => simpa [Meaning.ruleOpenAfter, UnderRule, Item.header?, hmeaning] using hopen

theorem startsGroup_iff_opensGroup {above : List Item} {ruleOpen : Bool}
    (hopen : ruleOpen = true ↔ UnderRule above) (line : Text) :
    Item.startsGroup ruleOpen line = true ↔ OpensGroup above line := by
  unfold OpensGroup Item.startsGroup
  rw [Bool.and_eq_true, ← hopen]
  cases Line.ofText line <;> simp

/-! ## There is no other layout -/

theorem eq_ofLines_of_proper {above items : List Item} {ruleOpen : Bool}
    (hopen : ruleOpen = true ↔ UnderRule above)
    (hnumbered : ∀ place ∈ places above items, place.item.line = lineCount place.above + 1)
    (hproper : ∀ place ∈ places above items, place.Proper) :
    items = Item.ofLines ruleOpen (lineCount above + 1) (items.flatMap Item.lines) := by
  induction items generalizing above ruleOpen with
  | nil => simp
  | cons item below ih =>
      rw [places_cons, List.forall_mem_cons] at hnumbered hproper
      obtain ⟨hnumber, hnumbered⟩ := hnumbered
      obtain ⟨hitem, hproper⟩ := hproper
      have htail := ih (ruleOpenAfter_iff_underRule hopen item) hnumbered hproper
      rw [lineCount_append_singleton, Nat.add_right_comm] at htail
      obtain ⟨number, lines, meaning⟩ := item
      cases hitem with
      | single line hlines hopening hmeaning =>
          have hstarts : Item.startsGroup ruleOpen line = false := by
            rw [← Bool.not_eq_true, startsGroup_iff_opensGroup hopen]
            exact hopening
          simp only at hnumber hlines hmeaning
          subst hnumber hlines hmeaning
          rw [List.flatMap_cons, List.singleton_append,
            Item.ofLines_of_not_startsGroup _ _ hstarts]
          exact congrArg _ htail
      | group line more hlines hopening hchained hends hmeaning =>
          have hstarts := (startsGroup_iff_opensGroup hopen line).mpr hopening
          simp only at hnumber hlines hmeaning hends
          subst hnumber hlines hmeaning
          have hlast : Continuation.Complete (line :: more) ∨
              below.flatMap Item.lines = [] := by
            refine hends.imp_right ?_
            rintro rfl
            rfl
          rw [List.flatMap_cons, Item.ofLines_group_append _ _ _ hstarts hchained hlast]
          exact congrArg _ htail

/-! ## Cutting from the top gives a layout -/

theorem proper_of_mem_places_ofLines (ruleOpen : Bool) (number : Nat) (lines : List Text) :
    ∀ above, (ruleOpen = true ↔ UnderRule above) → number = lineCount above + 1 →
      ∀ place ∈ places above (Item.ofLines ruleOpen number lines),
        place.item.line = lineCount place.above + 1 ∧ place.Proper := by
  fun_induction Item.ofLines ruleOpen number lines with
  | case1 =>
      intro above _ _ place hmem
      simp [places] at hmem
  | case2 ruleOpen number line lines hstarts group meaning ih =>
      intro above hopen hnumber
      have hopening := (startsGroup_iff_opensGroup hopen line).mp hstarts
      rw [places_cons, List.forall_mem_cons]
      constructor
      · obtain ⟨more, hgroup⟩ : ∃ more, group = line :: more :=
          Continuation.exists_split_cons line lines
        refine ⟨hnumber, .group line more hgroup hopening ?_ ?_ ?_⟩
        · rw [← hgroup]
          exact Continuation.chained_split _
        · rw [← hgroup]
          refine (Continuation.complete_split_or_eq_nil (line :: lines)).imp_right ?_
          intro hrest
          simp [hrest]
        · exact congrArg Meaning.ofGroup hgroup
      · apply ih _ (ruleOpenAfter_iff_underRule hopen ⟨number, group, meaning⟩)
        rw [lineCount_append_singleton, hnumber, Nat.add_right_comm]
  | case3 ruleOpen number line lines hstarts meaning ih =>
      intro above hopen hnumber
      have hopening : ¬ OpensGroup above line := by
        rw [← startsGroup_iff_opensGroup hopen]
        exact hstarts
      rw [places_cons, List.forall_mem_cons]
      constructor
      · exact ⟨hnumber, .single line rfl hopening rfl⟩
      · apply ih _ (ruleOpenAfter_iff_underRule hopen ⟨number, [line], meaning⟩)
        rw [lineCount_append_singleton, hnumber]
        rfl

end Layout

theorem isLayout_ofLines (lines : List Text) : IsLayout lines (Item.ofLines false 1 lines) := by
  have hproper :=
    Layout.proper_of_mem_places_ofLines false 1 lines [] Layout.false_iff_underRule_nil rfl
  constructor
  · exact Item.flatMap_lines_ofLines false 1 lines
  · exact fun place hmem => (hproper place hmem).1
  · exact fun place hmem => (hproper place hmem).2

theorem IsLayout.eq_ofLines {lines : List Text} {items : List Item}
    (hlayout : IsLayout lines items) : items = Item.ofLines false 1 lines := by
  rw [← hlayout.lines_eq]
  exact Layout.eq_ofLines_of_proper Layout.false_iff_underRule_nil hlayout.numbered
    hlayout.proper

end MakeOutline
