import MakeOutline.Proofs.Expansion
import MakeOutline.Proofs.SwallowedLines

/-!
# Texts read piece by piece

At a character that no reference holds a text may be cut in two.  What stands in front of
it has no effect on the references behind it, so the references of the whole are those of
the two pieces, and the whole expands as the pieces do.  A line end is such a character.
So a recipe may be taken line by line or as one text, as long as nothing is assigned
between its lines.
-/

namespace MakeOutline

/-! ## Cutting at a character -/

namespace Fragment

/-- Whether a reference may hold the character. -/
def isReferenceChar (c : Char) : Bool :=
  c == '$' || c == '(' || c == ')' || c == '{' || c == '}' || VariableName.isPart c

theorem isReferenceChar_of_mem_written {bracket : Bracket} {name : Text} {c : Char}
    (hname : VariableName.accepts name = true) (hmem : c ∈ (reference bracket name).written) :
    isReferenceChar c = true := by
  simp only [written, List.cons_append, List.mem_cons, List.mem_append, List.not_mem_nil,
    or_false] at hmem
  simp only [isReferenceChar, Bool.or_eq_true, beq_iff_eq]
  rcases hmem with rfl | rfl | hpart | rfl
  · simp
  · cases bracket <;> simp [Bracket.opening]
  · exact .inr (VariableName.isPart_of_accepts hname c hpart)
  · cases bracket <;> simp [Bracket.closing]

/-- What does not hold the character cannot go on over it. -/
theorem prefix_of_prefix_append_cons {part x y : Text} {c : Char} (hc : c ∉ part)
    (hbegins : part <+: x ++ c :: y) : part <+: x := by
  obtain ⟨rest, heq⟩ := hbegins
  rcases List.append_eq_append_iff.mp heq with ⟨between, rfl, _⟩ | ⟨between, rfl, hrest⟩
  · exact List.prefix_append part between
  · cases between with
    | nil => simp
    | cons d between =>
        obtain ⟨rfl, _⟩ := List.cons.inj hrest
        exact absurd (List.mem_append_right x List.mem_cons_self) hc

theorem leadingReference?_append {t rest : Text} {fragment : Fragment} (more : Text)
    (hread : leadingReference? t = some (fragment, rest)) :
    leadingReference? (t ++ more) = some (fragment, rest ++ more) := by
  obtain ⟨bracket, name, rfl, hname⟩ := exists_of_leadingReference? hread
  rw [written_append_of_leadingReference? hread, List.append_assoc]
  exact leadingReference?_reference_append bracket _ hname

theorem leadingReference?_append_cons_of_none {x : Text} {c : Char} (y : Text)
    (hc : isReferenceChar c = false) (hnone : leadingReference? x = none) :
    leadingReference? (x ++ c :: y) = none := by
  by_contra hsome
  obtain ⟨⟨fragment, rest⟩, hread⟩ := Option.ne_none_iff_exists'.mp hsome
  obtain ⟨bracket, name, rfl, hname⟩ := exists_of_leadingReference? hread
  have hnot : c ∉ (reference bracket name).written := by
    intro hmem
    rw [isReferenceChar_of_mem_written hname hmem] at hc
    contradiction
  obtain ⟨behind, rfl⟩ :=
    prefix_of_prefix_append_cons hnot ⟨rest, (written_append_of_leadingReference? hread).symm⟩
  rw [leadingReference?_reference_append bracket behind hname] at hnone
  contradiction

end Fragment

namespace Text

/-- What is read in front of the character and behind it is read on its own. -/
theorem fragments_append_cons (x y : Text) {c : Char}
    (hc : Fragment.isReferenceChar c = false) :
    (x ++ c :: y).fragments = x.fragments ++ .character c :: y.fragments := by
  fun_induction fragments x with
  | case1 =>
      have hnone : Fragment.leadingReference? [] = none := rfl
      rw [List.nil_append, List.nil_append]
      exact fragments_of_none (Fragment.leadingReference?_append_cons_of_none y hc hnone)
  | case2 d x fragment rest hread ih =>
      rw [fragments_of_some (Fragment.leadingReference?_append (c :: y) hread), ih,
        List.cons_append]
  | case3 d x hnone ih =>
      have hwhole := Fragment.leadingReference?_append_cons_of_none y hc hnone
      rw [List.cons_append] at hwhole ⊢
      rw [fragments_of_none hwhole, ih, List.cons_append]

theorem referencedNames_append_cons (x y : Text) {c : Char}
    (hc : Fragment.isReferenceChar c = false) :
    (x ++ c :: y).referencedNames = x.referencedNames ++ y.referencedNames := by
  rw [referencedNames, fragments_append_cons x y hc, List.filterMap_append]
  rfl

end Text

theorem Variables.expand_append_cons (table : Variables) (x y : Text) {c : Char}
    (hc : Fragment.isReferenceChar c = false) :
    table.expand (x ++ c :: y) = table.expand x ++ c :: table.expand y := by
  rw [expand, Text.fragments_append_cons x y hc, List.flatMap_append]
  rfl

namespace Reference

/-- The same reference further on in a longer text. -/
def shift (size : Nat) (reference : Reference) : Reference :=
  { reference with start := reference.start + size, stop := reference.stop + size }

theorem ofFragments_add (offset size : Nat) (fragments : List Fragment) :
    ofFragments (offset + size) fragments = (ofFragments offset fragments).map (shift size) := by
  induction fragments generalizing offset with
  | nil => rfl
  | cons fragment fragments ih =>
      cases fragment with
      | character c =>
          rw [ofFragments_character, Nat.add_right_comm, ih, ofFragments_character]
      | reference bracket name =>
          rw [ofFragments_reference, Nat.add_right_comm, ih, ofFragments_reference]
          rfl

theorem ofFragments_append (offset : Nat) (first second : List Fragment) :
    ofFragments offset (first ++ second) =
      ofFragments offset first ++
        ofFragments (offset + Text.utf8Size (first.flatMap Fragment.written)) second := by
  induction first generalizing offset with
  | nil => rfl
  | cons fragment first ih =>
      rw [List.cons_append, List.flatMap_cons, Text.utf8Size_append, ← Nat.add_assoc]
      cases fragment with
      | character c => rw [ofFragments_character, ih, ofFragments_character]; rfl
      | reference bracket name =>
          rw [ofFragments_reference, ih, ofFragments_reference, List.cons_append]

end Reference

theorem Text.references_append_cons (x y : Text) {c : Char}
    (hc : Fragment.isReferenceChar c = false) :
    (x ++ c :: y).references =
      x.references ++ y.references.map (Reference.shift (x ++ [c]).utf8Size) := by
  rw [references, fragments_append_cons x y hc, Reference.ofFragments_append,
    x.flatMap_written_fragments, Reference.ofFragments_character, utf8Size_append,
    Nat.add_assoc, Reference.ofFragments_add]
  rfl

/-! ## Several pieces -/

section

variable {c : Char} (hc : Fragment.isReferenceChar c = false)
include hc

theorem Variables.expand_joinedBy (table : Variables) (parts : List Text) :
    table.expand (Text.joinedBy [c] parts) = Text.joinedBy [c] (parts.map table.expand) := by
  induction parts with
  | nil => rw [expand, Text.joinedBy, List.intercalate_nil, Text.fragments_nil]; rfl
  | cons part parts ih =>
      cases parts with
      | nil => simp [Text.joinedBy]
      | cons next parts =>
          rw [Text.joinedBy, List.intercalate_cons_cons, ← Text.joinedBy, List.append_assoc,
            List.singleton_append, expand_append_cons table part _ hc, ih]
          simp [Text.joinedBy]

theorem Text.referencedNames_joinedBy (parts : List Text) :
    (joinedBy [c] parts).referencedNames = parts.flatMap referencedNames := by
  induction parts with
  | nil => rw [referencedNames, joinedBy, List.intercalate_nil, fragments_nil]; rfl
  | cons part parts ih =>
      cases parts with
      | nil => simp [joinedBy]
      | cons next parts =>
          rw [joinedBy, List.intercalate_cons_cons, ← joinedBy, List.append_assoc,
            List.singleton_append, referencedNames_append_cons part _ hc, ih]
          rfl

end

/-! ## Recipes -/

namespace Place

/-- The commands as they are written, joined by line ends. -/
def rawRecipe (place : Place) : Text := Text.joinedBy ['\n'] (place.recipe.map Prod.snd)

/-- The variables at the first command, if there is one. -/
def tableAtRecipe (place : Place) : Variables :=
  match place.recipe with
  | [] => Layout.table place.above
  | (table, _) :: _ => table

/-- An item of the lines assigns a variable between two lines of the recipe. -/
def AssignsWithinRecipe (lines : List Text) (place : Place) : Prop :=
  ∃ item ∈ Item.ofLines false 1 lines, item.assignment?.isSome ∧
    ∃ first ∈ place.recipeLines, ∃ last ∈ place.recipeLines,
      first.1 < item.line ∧ item.line < last.1

end Place

namespace Layout

/-- What stands above a place begins with what stands above the places before it. -/
theorem pairwise_above_places (above items : List Item) :
    (places above items).Pairwise fun first second =>
      ∃ between, second.above = first.above ++ first.item :: between := by
  have hbegins : ∀ (items above : List Item), ∀ place ∈ places above items,
      above <+: place.above := by
    intro items
    induction items with
    | nil =>
        intro above place hmem
        simp [places] at hmem
    | cons item below ih =>
        intro above place hmem
        rcases List.mem_cons.mp hmem with rfl | htail
        · exact List.prefix_rfl
        · exact (List.prefix_append above [item]).trans (ih _ place htail)
  induction items generalizing above with
  | nil => exact .nil
  | cons item below ih =>
      refine .cons ?_ (ih _)
      intro place hmem
      obtain ⟨between, hbetween⟩ := hbegins below _ place hmem
      exact ⟨between, by rw [← hbetween, List.append_assoc]; rfl⟩

theorem table_append_of_forall {between : List Item} (above : List Item)
    (hnone : ∀ item ∈ between, item.assignment? = none) :
    table (above ++ between) = table above := by
  induction between using List.reverseRecOn with
  | nil => rw [List.append_nil]
  | append_singleton between item ih =>
      rw [List.forall_mem_append, List.forall_mem_singleton] at hnone
      rw [← List.append_assoc, table_append_of_none _ hnone.2, ih hnone.1]

variable {lines : List Text}

/-- From a command down to another place the table stays, if nothing is assigned between. -/
theorem table_above_eq_of_command {first second : Place} {between : List Item} {text : Text}
    (hmem : second ∈ places [] (Item.ofLines false 1 lines))
    (habove : second.above = first.above ++ first.item :: between)
    (hcommand : first.item.command? = some text)
    (hnone : ∀ item ∈ Item.ofLines false 1 lines, first.item.line < item.line →
      item.line < second.item.line → item.assignment? = none) :
    table first.above = table second.above := by
  have hitems := mem_places_nil_iff.mp hmem
  have hordered := Item.pairwise_line_ofLines false 1 lines
  rw [← hitems, habove, List.append_assoc, List.cons_append] at hordered
  obtain ⟨_, hordered, _⟩ := List.pairwise_append.mp hordered
  obtain ⟨hbelow, hordered⟩ := List.pairwise_cons.mp hordered
  obtain ⟨_, _, hsecond⟩ := List.pairwise_append.mp hordered
  rw [habove]
  refine (table_append_of_forall first.above ?_).symm
  intro item hitem
  rcases List.mem_cons.mp hitem with rfl | hbetween
  · unfold Item.command? at hcommand
    unfold Item.assignment?
    split at hcommand
    next hmeaning => rw [hmeaning]
    next => contradiction
  · apply hnone item
    · rw [← hitems, habove]
      exact List.mem_append_left _ (List.mem_append_right _ hitem)
    · exact hbelow item (List.mem_append_left _ hbetween)
    · exact hsecond item hbetween second.item List.mem_cons_self

variable {place : Place}

theorem pairwise_table_recipe (hmem : place ∈ places [] (Item.ofLines false 1 lines))
    (hassigns : ¬ place.AssignsWithinRecipe lines) :
    place.recipe.Pairwise fun first second => first.1 = second.1 := by
  unfold Place.recipe commandsBelow
  rw [List.pairwise_filterMap]
  have hordered := (pairwise_above_places (place.above ++ [place.item]) place.below).sublist
    (List.takeWhile_sublist (·.item.header?.isNone))
  refine hordered.imp_of_mem ?_
  rintro first second hfirst hsecond ⟨between, habove⟩ entry hentry other hother
  obtain ⟨text, htext, rfl⟩ := Option.map_eq_some_iff.mp hentry
  obtain ⟨last, hlast, rfl⟩ := Option.map_eq_some_iff.mp hother
  refine table_above_eq_of_command (mem_places_of_mem_below hmem
    ((List.takeWhile_sublist _).subset hsecond)) habove htext ?_
  intro item hitem habove hbelow
  by_contra hassigned
  refine hassigns ⟨item, hitem, Option.isSome_iff_ne_none.mpr hassigned,
    (first.item.line, text), ?_, (second.item.line, last), ?_, habove, hbelow⟩
  · exact List.mem_filterMap.mpr ⟨first, hfirst, by rw [htext]; rfl⟩
  · exact List.mem_filterMap.mpr ⟨second, hsecond, by rw [hlast]; rfl⟩

end Layout

namespace Place

variable {lines : List Text} {place : Place}

theorem joinedBy_expand_recipe
    (hmem : place ∈ Layout.places [] (Item.ofLines false 1 lines))
    (hassigns : ¬ place.AssignsWithinRecipe lines) :
    Text.joinedBy ['\n'] (place.recipe.map fun (table, text) => table.expand text) =
      place.tableAtRecipe.expand place.rawRecipe := by
  have hpairwise := Layout.pairwise_table_recipe hmem hassigns
  rw [rawRecipe, Variables.expand_joinedBy (by decide), List.map_map]
  congr 1
  apply List.map_congr_left
  intro entry hentry
  have htable : entry.1 = place.tableAtRecipe := by
    unfold tableAtRecipe
    split
    next hnil =>
      rw [hnil] at hentry
      contradiction
    next first text others hcons =>
      rw [hcons] at hentry hpairwise
      rcases List.mem_cons.mp hentry with rfl | hothers
      · rfl
      · exact (List.rel_of_pairwise_cons hpairwise hothers).symm
  rw [← htable]
  rfl

theorem flatMap_referencedNames_recipe (place : Place) :
    place.recipe.flatMap (fun (_, text) => text.referencedNames) =
      place.rawRecipe.references.map Reference.name := by
  rw [Text.map_name_references, rawRecipe, Text.referencedNames_joinedBy (by decide),
    List.flatMap_map]

end Place

/-- References and expansion may be taken piece by piece, and so a recipe as one text. -/
theorem read_piecewise :
    (∀ (table : Variables) (x y : Text) (c : Char), Fragment.isReferenceChar c = false →
      (x ++ c :: y).references =
          x.references ++ y.references.map (Reference.shift (x ++ [c]).utf8Size) ∧
        table.expand (x ++ c :: y) = table.expand x ++ c :: table.expand y) ∧
    ∀ lines, ∀ target ∈ Extraction.targetsOf lines,
      ∃ place ∈ Layout.places [] (Item.ofLines false 1 lines),
        place.definition? = some target ∧
        target.required = (place.rawRecipe.references.map Reference.name).eraseDups ∧
        (¬ place.AssignsWithinRecipe lines →
          target.commands = place.tableAtRecipe.expand place.rawRecipe) := by
  constructor
  · intro table x y c hc
    exact ⟨Text.references_append_cons x y hc, table.expand_append_cons x y hc⟩
  · intro lines target htarget
    obtain ⟨place, hmem, hdefinition⟩ := Layout.exists_place_of_mem_targetsOf htarget
    obtain ⟨header, _, _, rfl⟩ := Place.exists_header_of_definition? hdefinition
    refine ⟨place, hmem, hdefinition, ?_, ?_⟩
    · rw [place.flatMap_referencedNames_recipe]
    · exact Place.joinedBy_expand_recipe hmem

/-- A recipe with a bracket that is left open on its first line. -/
def openBracketLines : List Text :=
  ["a:".toList, "\techo $(".toList, "\tX) $(B)".toList]

/-- A bracket that is left open has no effect behind a blank or on the next line. -/
theorem read_piecewise_open_bracket :
    (Fragment.isReferenceChar ' ' = false ∧
      Text.references ("é$(A".toList ++ ' ' :: ") $(B)".toList) =
        Text.references "é$(A".toList ++
          (Text.references ") $(B)".toList).map (Reference.shift 6)) ∧
    ∃ target ∈ Extraction.targetsOf openBracketLines,
      ∃ place ∈ Layout.places [] (Item.ofLines false 1 openBracketLines),
        place.definition? = some target ∧ ¬ place.AssignsWithinRecipe openBracketLines ∧
        target.commands = place.tableAtRecipe.expand place.rawRecipe := by
  have hblank : Fragment.isReferenceChar ' ' = false := by decide
  refine ⟨⟨hblank, (read_piecewise.1 .empty "é$(A".toList ") $(B)".toList ' ' hblank).1⟩, ?_⟩
  have htargets : Extraction.targetsOf openBracketLines ≠ [] := by decide +kernel
  have hnone : ∀ item ∈ Item.ofLines false 1 openBracketLines, item.assignment? = none := by
    decide +kernel
  obtain ⟨target, htarget⟩ := List.exists_mem_of_ne_nil _ htargets
  obtain ⟨place, hmem, hdefinition, _, hcommands⟩ := read_piecewise.2 _ target htarget
  have hassigns : ¬ place.AssignsWithinRecipe openBracketLines := by
    rintro ⟨item, hitem, hassigned, _⟩
    rw [hnone item hitem] at hassigned
    contradiction
  exact ⟨target, htarget, place, hmem, hdefinition, hassigns, hcommands hassigns⟩

end MakeOutline
