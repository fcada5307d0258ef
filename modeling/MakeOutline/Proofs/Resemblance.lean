import MakeOutline.Discovery
import MakeOutline.Proofs.LineGrammar
import MakeOutline.Proofs.Outline

/-!
# Lines that resemble rules

Whatever a target can be extracted from resembles a makefile.  A line on its own resembles
a rule if its colon comes before any hash and it holds no equals sign.  The merged text of
a group is read as a header only if it has these two properties, and then the physical
line that holds its colon has them, whichever line of the group that is.
-/

namespace MakeOutline

/-- A colon stands in front of which there is no hash. -/
def HasOpenColon (t : Text) : Prop := ∃ front back, t = front ++ ':' :: back ∧ '#' ∉ front

theorem Text.trimStart_append_cons {c : Char} (s t : Text) (hc : isBlank c = false) :
    trimStart (s ++ c :: t) = s.trimStart ++ c :: t := by
  rw [trimStart, List.dropWhile_append]
  split
  next hnone =>
    rw [List.isEmpty_iff] at hnone
    rw [trimStart, hnone, List.dropWhile_cons_of_neg (by simp [hc]), List.nil_append]
  next => rfl

theorem HasOpenColon.of_prefix {s t : Text} (hs : HasOpenColon s) (hbegins : s <+: t) :
    HasOpenColon t := by
  obtain ⟨front, back, rfl, hfront⟩ := hs
  obtain ⟨rest, rfl⟩ := hbegins
  exact ⟨front, back ++ rest, by simp, hfront⟩

theorem HasOpenColon.colon_mem {t : Text} (ht : HasOpenColon t) : ':' ∈ t := by
  obtain ⟨front, back, rfl, _⟩ := ht
  simp

/-- Nothing but a character in front of the colon, or the colon, begins what is trimmed. -/
theorem HasOpenColon.head?_trim_ne {t : Text} (ht : HasOpenColon t) :
    t.trim.head? ≠ some '#' := by
  intro hhash
  obtain ⟨rest, hrest⟩ : t.trim <+: t.trimStart := Text.dropTrailing_isPrefix isBlank t.trimStart
  have hstart : t.trimStart.head? = some '#' := by
    rw [← hrest, List.head?_append, hhash]
    rfl
  obtain ⟨front, back, rfl, hfront⟩ := ht
  rw [Text.trimStart_append_cons front back (by decide)] at hstart
  rcases Text.mem_or_head?_of_head?_append hstart with hmem | hcolon
  · exact hfront (front.trimStart_suffix.subset hmem)
  · exact absurd (Option.some.inj hcolon) (by decide)

theorem resemblesRule_of_hasOpenColon {line : Text} (hcolon : HasOpenColon line)
    (hequals : '=' ∉ line) : resemblesRule line = true := by
  have hcolon' : ':' ∈ line.trim := by
    apply Text.mem_dropTrailing_of_mem _ (by decide)
    exact Text.mem_dropWhile_of_mem hcolon.colon_mem (by decide)
  have hequals' : '=' ∉ line.trim := fun hmem => hequals (Text.mem_of_mem_trim hmem)
  simp [resemblesRule, hcolon', hequals', hcolon.head?_trim_ne]

theorem Header.hasOpenColon_of_ofLine? {t : Text} {header : Header}
    (hread : ofLine? t = some header) : HasOpenColon t := by
  obtain ⟨_, parts, hspell, _⟩ := ofLine?_eq_some_iff.mp hread
  refine ⟨t.takeWhile isBlank ++ (parts.name ++ parts.blanks), parts.rest, ?_, ?_⟩
  · have htext := hspell.text_eq
    rw [Parts.behindName] at htext
    rw [List.append_assoc, List.append_assoc, ← htext]
    exact List.takeWhile_append_dropWhile.symm
  · intro hhash
    rcases List.mem_append.mp hhash with hblank | hhash
    · exact absurd (List.mem_takeWhile_imp hblank) (by decide)
    · rcases List.mem_append.mp hhash with hname | hblank
      · exact absurd (hspell.name '#' hname) (by decide)
      · exact absurd (hspell.blanks '#' hblank) (by decide)

namespace Continuation

/-- The colon of a merged text stands on one of the lines that were merged. -/
theorem exists_hasOpenColon_of_merge {group : List Text} (hmerge : HasOpenColon (merge group)) :
    ∃ line ∈ group, HasOpenColon line := by
  induction group with
  | nil =>
      obtain ⟨front, back, hmerge, _⟩ := hmerge
      simp [merge, Text.joinedBy] at hmerge
  | cons line more ih =>
      cases more with
      | nil =>
          rw [merge_singleton] at hmerge
          exact ⟨line, List.mem_cons_self, hmerge.of_prefix (Text.dropTrailing_isPrefix _ line)⟩
      | cons next rest =>
          obtain ⟨front, back, hcolon, hfront⟩ := hmerge
          rw [merge_cons_cons] at hcolon
          rcases List.append_eq_append_iff.mp hcolon with
            ⟨inside, rfl, hbehind⟩ | ⟨inside, hline, hbehind⟩
          · -- The colon stands behind the first line, and so on one of the others.
            cases inside with
            | nil => simp at hbehind
            | cons space inside =>
                obtain ⟨_, hmerge⟩ := List.cons.inj hbehind
                have hinside : '#' ∉ inside := by
                  intro hmem
                  exact hfront (List.mem_append_right _ (List.mem_cons_of_mem space hmem))
                obtain ⟨found, hfound, hopen⟩ := ih ⟨inside, back, hmerge, hinside⟩
                exact ⟨found, List.mem_cons_of_mem line hfound, hopen⟩
          · cases inside with
            | nil => simp at hbehind
            | cons colon inside =>
                obtain ⟨rfl, _⟩ := List.cons.inj hbehind
                have hopen : HasOpenColon (line.dropTrailing (· == '\\')) :=
                  ⟨front, inside, hline, hfront⟩
                exact ⟨line, List.mem_cons_self,
                  hopen.of_prefix (Text.dropTrailing_isPrefix _ line)⟩

end Continuation

/-- One of the lines from which a header is read resembles a rule. -/
theorem Place.Proper.exists_resemblesRule_of_header {place : Place} {header : Header}
    (hproper : place.Proper) (hmeaning : place.item.meaning = .header header) :
    ∃ line ∈ place.item.lines, resemblesRule line = true := by
  obtain ⟨text, hread, hlines⟩ := hproper.exists_ofLine?_of_header hmeaning
  have hopen := Header.hasOpenColon_of_ofLine? hread
  rcases hlines with hsingle | hmerged
  · refine ⟨text, by simp [hsingle], ?_⟩
    exact resemblesRule_of_hasOpenColon hopen (Header.equals_not_mem_of_ofLine? hread)
  · rw [← hmerged] at hread hopen
    obtain ⟨line, hline, hopen⟩ := Continuation.exists_hasOpenColon_of_merge hopen
    have hequals := Continuation.equals_not_mem_of_header_merge hread line hline
    exact ⟨line, hline, resemblesRule_of_hasOpenColon hopen hequals⟩

theorem resemblesMakefile_of_targetsOf_ne_nil {lines : List Text}
    (htargets : Extraction.targetsOf (lines.take 10) ≠ []) : resemblesMakefile lines = true := by
  obtain ⟨target, hmem⟩ := List.exists_mem_of_ne_nil _ htargets
  obtain ⟨place, hplace, hdefinition⟩ := Layout.exists_place_of_mem_targetsOf hmem
  obtain ⟨header, hmeaning, _, _⟩ := Place.exists_header_of_definition? hdefinition
  have hlayout := isLayout_ofLines (lines.take 10)
  obtain ⟨line, hline, hresembles⟩ :=
    (hlayout.proper place hplace).exists_resemblesRule_of_header hmeaning
  refine List.any_eq_true.mpr ⟨line, ?_, hresembles⟩
  have hitem : place.item ∈ Item.ofLines false 1 (lines.take 10) := by
    rw [← Layout.mem_places_nil_iff.mp hplace]
    simp
  have hinspected := List.mem_flatMap_of_mem hitem hline
  rw [hlayout.lines_eq] at hinspected
  exact hinspected

/-- The only header has its colon on the second of its lines. -/
theorem resemblesMakefile_colon_on_second_line :
    Extraction.targetsOf
        (["# build".toList, "all \\".toList, ": main \\".toList, "  util".toList].take 10) ≠ [] ∧
      resemblesMakefile
        ["# build".toList, "all \\".toList, ": main \\".toList, "  util".toList] = true := by
  have htargets : Extraction.targetsOf
      (["# build".toList, "all \\".toList, ": main \\".toList, "  util".toList].take 10) ≠ [] := by
    decide +kernel
  exact ⟨htargets, resemblesMakefile_of_targetsOf_ne_nil htargets⟩

end MakeOutline
