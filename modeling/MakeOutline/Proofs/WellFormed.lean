import Mathlib.Data.List.Nodup
import MakeOutline.Proofs.ReferencePlaces
import MakeOutline.Proofs.SwallowedLines

/-!
# What is extracted is well formed

Whatever the lines are, a user can ask for each of the targets: its name is of the
characters of names, belongs to no directive and to no other target, and finds
the target again.  Every target is defined by a header, so its parts are what the
grammar of a line lets through, and its line is that of the header.
-/

namespace MakeOutline

/-! ## Texts -/

namespace Text

/-- No blank stands at either end. -/
structure Trimmed (t : Text) : Prop where
  head : ∀ c, t.head? = some c → isBlank c = false
  last : ∀ c, t.getLast? = some c → isBlank c = false

theorem trimmed_trim (t : Text) : Trimmed t.trim := by
  constructor
  · intro c hhead
    obtain ⟨more, htrim⟩ := List.head?_eq_some_iff.mp hhead
    obtain ⟨rest, hrest⟩ : t.trim <+: t.trimStart := dropTrailing_isPrefix isBlank t.trimStart
    apply head?_dropWhile (p := isBlank) (t := t)
    rw [← trimStart, ← hrest, htrim]
    rfl
  · intro c hlast
    exact getLast?_dropTrailing hlast

theorem Trimmed.trim_eq {t : Text} (htrimmed : t.Trimmed) : t.trim = t := by
  have hstart : t.trimStart = t :=
    trimStart_append_of_head? (s := []) (by simp) htrimmed.head
  rw [trim, hstart, trimEnd]
  cases hlast : t.getLast? with
  | none =>
      rw [List.getLast?_eq_none_iff.mp hlast]
      rfl
  | some c =>
      obtain ⟨front, rfl⟩ := List.getLast?_eq_some_iff.mp hlast
      exact dropTrailing_append_cons front [] (htrimmed.last c hlast)

theorem forall_mem_of_mem_splitOnP {p : Char → Bool} {t piece : Text}
    (hmem : piece ∈ t.splitOnP p) : ∀ c ∈ piece, p c = false ∧ c ∈ t := by
  induction t generalizing piece with
  | nil =>
      rw [List.splitOnP_nil, List.mem_singleton] at hmem
      simp [hmem]
  | cons d t ih =>
      have htail : ∀ piece ∈ t.splitOnP p, ∀ c ∈ piece, p c = false ∧ c ∈ d :: t := by
        intro piece hpiece c hc
        exact (ih hpiece c hc).imp_right (List.mem_cons_of_mem d)
      rw [List.splitOnP_cons_eq_if_modifyHead] at hmem
      split at hmem
      next =>
        rcases List.mem_cons.mp hmem with rfl | hpiece
        · simp
        · exact htail piece hpiece
      next hd =>
        obtain ⟨first, rest, hpieces⟩ := List.exists_cons_of_ne_nil (List.splitOnP_ne_nil p t)
        rw [hpieces] at hmem htail
        rw [List.forall_mem_cons] at htail
        rcases List.mem_cons.mp hmem with rfl | hpiece
        · exact List.forall_mem_cons.mpr ⟨⟨by simpa using hd, List.mem_cons_self⟩, htail.1⟩
        · exact htail.2 piece hpiece

theorem forall_mem_of_mem_words {t word : Text} (hmem : word ∈ t.words) :
    word ≠ [] ∧ ∀ c ∈ word, isBlank c = false ∧ c ∈ t := by
  obtain ⟨hpiece, hne⟩ := List.mem_filter.mp hmem
  exact ⟨by simpa using hne, forall_mem_of_mem_splitOnP hpiece⟩

end Text

/-! ## Headers and the targets that they define -/

namespace Header

structure WellFormed (header : Header) : Prop where
  name_ne_nil : header.name ≠ []
  name : ∀ c ∈ header.name, isNameChar c = true
  dependencies : ∀ dependency ∈ header.dependencies,
    dependency ≠ [] ∧ ∀ c ∈ dependency, isBlank c = false ∧ c ≠ '='

theorem wellFormed_of_ofLine? {line : Text} {header : Header}
    (hread : ofLine? line = some header) : header.WellFormed := by
  obtain ⟨_, parts, hspell, rfl⟩ := ofLine?_eq_some_iff.mp hread
  refine ⟨hspell.name_ne_nil, hspell.name, ?_⟩
  intro dependency hmem
  obtain ⟨hne, hchars⟩ := Text.forall_mem_of_mem_words hmem
  refine ⟨hne, fun c hc => ⟨(hchars c hc).1, ?_⟩⟩
  rintro rfl
  exact hspell.rest (Text.mem_of_mem_trim (hchars '=' hc).2)

end Header

namespace Target

/-- The target is one of a makefile of that many lines. -/
structure WellFormed (lineCount : Nat) (target : Target) : Prop where
  name_ne_nil : target.name ≠ []
  name : ∀ c ∈ target.name, Header.isNameChar c = true
  name_head : target.name.head? ≠ some '.'
  not_special : isSpecial target.name = false
  dependencies : ∀ dependency ∈ target.dependencies,
    dependency ≠ [] ∧ ∀ c ∈ dependency, isBlank c = false ∧ c ≠ '='
  required_nodup : target.required.Nodup
  required : ∀ name ∈ target.required, VariableName.accepts name = true
  line_pos : 1 ≤ target.line
  line_le : target.line ≤ lineCount

theorem head?_ne_dot_of_isSpecial {name : Text} (hspecial : isSpecial name = false) :
    name.head? ≠ some '.' := by
  simp only [isSpecial, Bool.or_eq_false_iff] at hspecial
  simpa using hspecial.1.1.2

end Target

namespace Extraction

variable {lines : List Text}

theorem wellFormed_of_mem_targetsOf {target : Target} (hmem : target ∈ targetsOf lines) :
    target.WellFormed lines.length := by
  obtain ⟨place, hplace, hdefinition⟩ := Layout.exists_place_of_mem_targetsOf hmem
  obtain ⟨header, hmeaning, hspecial, rfl⟩ := Place.exists_header_of_definition? hdefinition
  obtain ⟨text, hread, _⟩ :=
    ((isLayout_ofLines lines).proper place hplace).exists_ofLine?_of_header hmeaning
  have hheader := Header.wellFormed_of_ofLine? hread
  have hitem : place.item ∈ Item.ofLines false 1 lines := by
    rw [← Layout.mem_places_nil_iff.mp hplace]
    simp
  have hbounds := Item.line_bounds_of_mem_ofLines hitem
  constructor
  · exact hheader.name_ne_nil
  · exact hheader.name
  · exact Target.head?_ne_dot_of_isSpecial hspecial
  · exact hspecial
  · exact hheader.dependencies
  · simp only
    rw [← addUnseen_eq_eraseDups]
    exact nodup_addUnseen _ List.nodup_nil
  · intro name hname
    obtain ⟨⟨table, command⟩, _, hreferenced⟩ :=
      List.mem_flatMap.mp (List.mem_eraseDups.mp hname)
    exact Text.accepts_of_mem_referencedNames hreferenced
  · exact hbounds.1
  · simp only
    omega

/-- Two targets on one line would be defined by one header. -/
theorem nodup_line_targetsOf : ((targetsOf lines).map Target.line).Nodup := by
  have hnames := nodup_name_targetsOf lines
  have hlines : ((Item.ofLines false 1 lines).map Item.line).Nodup := by
    rw [List.Nodup, List.pairwise_map]
    exact (Item.pairwise_line_ofLines false 1 lines).imp Nat.ne_of_lt
  rw [List.nodup_map_iff_inj_on hnames.of_map]
  intro target hmem other hother hline
  apply List.inj_on_of_nodup_map hnames hmem hother
  obtain ⟨place, hplace, hdefinition⟩ := Layout.exists_place_of_mem_targetsOf hmem
  obtain ⟨place', hplace', hdefinition'⟩ := Layout.exists_place_of_mem_targetsOf hother
  obtain ⟨header, hmeaning, _, rfl⟩ := Place.exists_header_of_definition? hdefinition
  obtain ⟨header', hmeaning', _, rfl⟩ := Place.exists_header_of_definition? hdefinition'
  rw [Layout.mem_places_nil_iff] at hplace hplace'
  have hitem : place.item = place'.item := by
    apply List.inj_on_of_nodup_map hlines
    · simp [← hplace]
    · simp [← hplace']
    · exact hline
  rw [hitem, hmeaning', Meaning.header.injEq] at hmeaning
  simp only [hmeaning]

end Extraction

/-! ## Tables -/

namespace Variables

structure WellFormed (table : Variables) : Prop where
  name : ∀ entry ∈ table.toList, VariableName.accepts entry.1 = true
  value : ∀ entry ∈ table.toList, Text.Trimmed entry.2

end Variables

theorem Extraction.wellFormed_tableOf (lines : List Text) : (tableOf lines).WellFormed := by
  have hassigned : ∀ entry ∈ (tableOf lines).toList, ∃ parts : Assignment.Parts,
      VariableName.accepts parts.name = true ∧ entry = (parts.name, parts.value.trim) := by
    rintro ⟨name, value⟩ hentry
    have hget : (tableOf lines).get? name = some value :=
      Variables.mem_toList_iff.mp hentry
    obtain ⟨line, _, hline⟩ := List.mem_filterMap.mp (Variables.mem_of_get?_ofList hget)
    obtain ⟨a, hkind, hpair⟩ := Option.map_eq_some_iff.mp hline
    obtain ⟨parts, hspell, rfl⟩ :=
      Assignment.ofLine?_eq_some_iff.mp (Line.assignment_of_assignment? hkind)
    exact ⟨parts, hspell.name, hpair.symm⟩
  constructor
  · intro entry hentry
    obtain ⟨parts, hname, rfl⟩ := hassigned entry hentry
    exact hname
  · intro entry hentry
    obtain ⟨parts, _, rfl⟩ := hassigned entry hentry
    exact Text.trimmed_trim parts.value

/-! ## Makefiles -/

namespace Makefile

structure WellFormed (lineCount : Nat) (makefile : Makefile) : Prop where
  nodup_name : (makefile.targets.map Target.name).Nodup
  nodup_line : (makefile.targets.map Target.line).Nodup
  target : ∀ target ∈ makefile.targets, target.WellFormed lineCount
  target? : ∀ target ∈ makefile.targets, makefile.target? target.name = some target
  table : makefile.table.WellFormed

theorem wellFormed_of_targets_eq {lines : List Text} {makefile : Makefile}
    (htargets : makefile.targets = Extraction.targetsOf lines)
    (htable : makefile.table.WellFormed) : makefile.WellFormed lines.length := by
  have hnames := Extraction.nodup_name_targetsOf lines
  constructor
  · rw [htargets]
    exact hnames
  · rw [htargets]
    exact Extraction.nodup_line_targetsOf
  · rw [htargets]
    exact fun target => Extraction.wellFormed_of_mem_targetsOf
  · unfold target?
    rw [htargets]
    exact fun target => Target.find?_of_mem hnames
  · exact htable

open Extraction in
/-- The whole makefile is well formed, and so is what any number of its first
lines gives and what either pass has at any moment.  No target is filtered out. -/
theorem ofLines_wellFormed (lines : List Text) :
    (ofLines lines).WellFormed lines.length ∧
      (ofLines lines).targets = (State.initial.readLines 1 lines).closeRule.targets ∧
      (∀ n, (ofLines (lines.take n)).WellFormed (lines.take n).length) ∧
      ∀ above rest, Item.ofLines false 1 lines = above ++ rest →
        WellFormed (above.flatMap Item.lines).length
          ⟨(State.below above).closeRule.targets, (State.below above).table⟩ ∧
        (State.below above).result = (State.below above).closeRule.targets := by
  refine ⟨?_, ?_, ?_, ?_⟩
  · exact wellFormed_of_targets_eq rfl (wellFormed_tableOf lines)
  · exact targetsOf_eq_closedTargets lines
  · exact fun n => wellFormed_of_targets_eq rfl (wellFormed_tableOf (lines.take n))
  · intro above rest hcut
    constructor
    · rw [State.below_eq_readLines hcut]
      apply wellFormed_of_targets_eq
      · exact (targetsOf_eq_closedTargets _).symm
      · simp only
        rw [table_readLines]
        exact wellFormed_tableOf _
    · exact State.result_foldl_initial above

end Makefile

end MakeOutline
