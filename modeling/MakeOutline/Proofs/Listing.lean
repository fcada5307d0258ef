import MakeOutline.CommandLine.Listing
import MakeOutline.Proofs.SelfDelimiting
import MakeOutline.Proofs.WellFormed

/-!
# What a listing tells

A listing is written from the names of the targets, their dependencies, the variables
that they require and the values of these.  All of this can be read back from it: the
parts have no blanks in them but for the values, which are quoted, and what a line is
about shows in how it begins.
-/

namespace MakeOutline.CommandLine

/-- What the listing tells of a target, each required variable with its default. -/
structure Entry where
  name : Text
  dependencies : List Text
  required : List (Text × Option Text)
  deriving DecidableEq, Repr

def defaultLabel : Text := " (default ".toList

def dependencyLabel : Text := "  depends on: ".toList

def variableLabel : Text := "  variables: ".toList

def requirementSeparator : Text := ", ".toList

def defaultText : Option Text → Text
  | some value => defaultLabel ++ value.quoted ++ [')']
  | none => []

def requirementText (required : Text × Option Text) : Text :=
  required.1 ++ defaultText required.2

/-- A line that is left out if there is nothing to tell. -/
def optionalLine (label separator : Text) (parts : List Text) : Text :=
  if parts.isEmpty then [] else label ++ Text.joinedBy separator parts ++ ['\n']

namespace Entry

def ofTarget (table : Variables) (target : Target) : Entry :=
  ⟨target.name, target.dependencies, target.required.map fun name => (name, table.get? name)⟩

def dependencyLine (entry : Entry) : Text :=
  optionalLine dependencyLabel [' '] entry.dependencies

def variableLine (entry : Entry) : Text :=
  optionalLine variableLabel requirementSeparator (entry.required.map requirementText)

def text (entry : Entry) : Text :=
  entry.name ++ '\n' :: (entry.dependencyLine ++ entry.variableLine)

structure WellFormed (entry : Entry) : Prop where
  name_ne_nil : entry.name ≠ []
  name : ∀ c ∈ entry.name, Header.isNameChar c = true
  dependencies : ∀ dependency ∈ entry.dependencies, ∀ c ∈ dependency, isBlank c = false
  required : ∀ required ∈ entry.required, ∀ c ∈ required.1, Header.isNameChar c = true

end Entry

def entries (makefile : Makefile) : List Entry :=
  makefile.targets.map (Entry.ofTarget makefile.table)

/-! ## The listing is written from the entries -/

theorem requirement_eq (table : Variables) (name : Text) :
    requirement table name = requirementText (name, table.get? name) := by
  unfold requirement requirementText
  cases table.get? name with
  | none => exact (List.append_nil name).symm
  | some value =>
      rw [defaultText, ← List.append_assoc, ← List.append_assoc]
      rfl

theorem targetListing_eq (table : Variables) (target : Target) :
    targetListing table target = (Entry.ofTarget table target).text := by
  have hrequired : target.required.map (requirement table) =
      (Entry.ofTarget table target).required.map requirementText := by
    rw [Entry.ofTarget, List.map_map]
    exact List.map_congr_left fun name _ => requirement_eq table name
  have hvariables : (Entry.ofTarget table target).variableLine =
      if target.needsVariables then
        variableLabel ++ Text.joinedBy requirementSeparator
          (target.required.map (requirement table)) ++ ['\n']
      else [] := by
    rw [Entry.variableLine, ← hrequired, optionalLine, List.isEmpty_map, Target.needsVariables]
    cases target.required.isEmpty <;> rfl
  have hlines : targetListing table target = target.name ++ ['\n'] ++
      (Entry.ofTarget table target).dependencyLine ++
      (Entry.ofTarget table target).variableLine := by
    rw [hvariables]
    rfl
  rw [hlines, Entry.text]
  simp only [List.append_assoc, List.singleton_append]
  rfl

theorem listing_eq_flatMap (makefile : Makefile) :
    listing makefile = (entries makefile).flatMap Entry.text := by
  rw [listing, entries, List.flatMap_map]
  exact List.flatMap_congr fun target _ => targetListing_eq makefile.table target

theorem wellFormed_of_mem_entries {lines : List Text} {entry : Entry}
    (hmem : entry ∈ entries (Makefile.ofLines lines)) : entry.WellFormed := by
  obtain ⟨target, htarget, rfl⟩ := List.mem_map.mp hmem
  have hwell := Extraction.wellFormed_of_mem_targetsOf htarget
  constructor
  · exact hwell.name_ne_nil
  · exact hwell.name
  · exact fun dependency hdependency c hc => ((hwell.dependencies dependency hdependency).2 c hc).1
  · intro required hrequired
    obtain ⟨name, hname, rfl⟩ := List.mem_map.mp hrequired
    exact VariableName.isNameChar_of_accepts (hwell.required name hname)

/-! ## Every part shows where it ends -/

/-- The elements of a line, each led by a separator, show where they end if each of
them does so in front of a separator and in front of the line end. -/
theorem selfDelimiting_line {α : Type} {write : α → Text} {admissible : α → Prop}
    {separator : Text} {c : Char} (hseparator : separator.head? = some c) (hc : c ≠ '\n')
    (hunique : ∀ {a b s t}, admissible a → admissible b →
      s.head? = some '\n' ∨ s.head? = some c → t.head? = some '\n' ∨ t.head? = some c →
      write a ++ s = write b ++ t → a = b ∧ s = t) :
    Text.SelfDelimiting (separator ++ write ·) admissible (·.head? = some '\n') := by
  have hhead : ∀ a t, (separator ++ write a ++ t).head? = some c := by
    intro a t
    rw [List.append_assoc, List.head?_append, hseparator]
    rfl
  have hfollows : ∀ {t}, Text.Follows (separator ++ write ·) admissible
      (·.head? = some '\n') t → t.head? = some '\n' ∨ t.head? = some c := by
    intro t hfollows
    cases hfollows with
    | stop hstop => exact .inl hstop
    | element a t ha => exact .inr (hhead a t)
  constructor
  · intro a b s t ha hb hs ht heq
    rw [List.append_assoc, List.append_assoc] at heq
    exact hunique ha hb (hfollows hs) (hfollows ht) (List.append_cancel_left heq)
  · intro a t ha hstop
    rw [hhead a t] at hstop
    exact hc (Option.some.inj hstop)

theorem eq_false_of_head? {p : Char → Bool} {t : Text} {c d : Char} (hc : p c = false)
    (hd : p d = false) (ht : t.head? = some c ∨ t.head? = some d) :
    ∀ e, t.head? = some e → p e = false := by
  intro e he
  rcases ht with hhead | hhead
  · rw [hhead] at he
    rwa [← Option.some.inj he]
  · rw [hhead] at he
    rwa [← Option.some.inj he]

theorem selfDelimiting_dependency :
    Text.SelfDelimiting ([' '] ++ id ·) (fun dependency => ∀ c ∈ dependency, isBlank c = false)
      (·.head? = some '\n') := by
  apply selfDelimiting_line rfl (by decide)
  intro a b s t ha hb hs ht heq
  have hrest : ∀ {rest : Text}, rest.head? = some '\n' ∨ rest.head? = some ' ' →
      ∀ c, rest.head? = some c → (!isBlank c) = false :=
    eq_false_of_head? (by decide) (by decide)
  exact Text.append_inj_of_head? (by simpa using ha) (by simpa using hb) (hrest hs) (hrest ht) heq

/-- A default begins with a blank, and what stands behind it does not. -/
theorem defaultText_append_inj {first second : Option Text} {s t : Text}
    (hs : s.head? ≠ some ' ') (ht : t.head? ≠ some ' ')
    (heq : defaultText first ++ s = defaultText second ++ t) : first = second ∧ s = t := by
  cases first with
  | none =>
      cases second with
      | none => exact ⟨rfl, heq⟩
      | some value =>
          have hs' : s = defaultText (some value) ++ t := heq
          rw [hs'] at hs
          exact absurd rfl hs
  | some value =>
      cases second with
      | none =>
          have ht' : defaultText (some value) ++ s = t := heq
          rw [← ht'] at ht
          exact absurd rfl ht
      | some value' =>
          simp only [defaultText, List.append_assoc] at heq
          obtain ⟨rfl, hrest⟩ := Text.quoted_append_inj (List.append_cancel_left heq)
          exact ⟨rfl, (List.cons.inj hrest).2⟩

theorem not_isNameChar_head?_defaultText (value : Option Text) {t : Text}
    (ht : ∀ c, t.head? = some c → Header.isNameChar c = false) :
    ∀ c, (defaultText value ++ t).head? = some c → Header.isNameChar c = false := by
  cases value with
  | none => exact ht
  | some value =>
      intro c hc
      obtain rfl := Option.some.inj hc
      decide

theorem selfDelimiting_requirementText :
    Text.SelfDelimiting (requirementSeparator ++ requirementText ·)
      (fun required => ∀ c ∈ required.1, Header.isNameChar c = true)
      (·.head? = some '\n') := by
  apply selfDelimiting_line rfl (by decide)
  rintro ⟨name, value⟩ ⟨name', value'⟩ s t ha hb hs ht heq
  have hname : ∀ {rest : Text}, rest.head? = some '\n' ∨ rest.head? = some ',' →
      ∀ c, rest.head? = some c → Header.isNameChar c = false :=
    eq_false_of_head? (by decide) (by decide)
  have hblank : ∀ {rest : Text}, rest.head? = some '\n' ∨ rest.head? = some ',' →
      rest.head? ≠ some ' ' := by
    intro rest hrest hhead
    exact absurd (eq_false_of_head? (p := (· == ' ')) (by decide) (by decide) hrest ' ' hhead)
      (by decide)
  simp only [requirementText, List.append_assoc] at heq
  obtain ⟨rfl, hrest⟩ := Text.append_inj_of_head? ha hb
    (not_isNameChar_head?_defaultText value (hname hs))
    (not_isNameChar_head?_defaultText value' (hname ht)) heq
  obtain ⟨rfl, hst⟩ := defaultText_append_inj (hblank hs) (hblank ht) hrest
  exact ⟨rfl, hst⟩

theorem optionalLine_append (label separator rest : Text) {parts : List Text}
    (hne : parts ≠ []) :
    optionalLine label separator parts ++ rest =
      label ++ (Text.joinedBy separator parts ++ '\n' :: rest) := by
  have hempty : parts.isEmpty = false := by simpa using hne
  rw [optionalLine, hempty]
  simp

/-- A line that may be left out can be read back if what follows cannot be taken for it. -/
theorem optionalLine_append_inj {α : Type} {write : α → Text} {admissible : α → Prop}
    {label separator s t : Text} {first second : List α}
    (hwrite : Text.SelfDelimiting (separator ++ write ·) admissible (·.head? = some '\n'))
    (hfirst : ∀ a ∈ first, admissible a) (hsecond : ∀ a ∈ second, admissible a)
    (hs : ¬ label <+: s) (ht : ¬ label <+: t)
    (heq : optionalLine label separator (first.map write) ++ s =
      optionalLine label separator (second.map write) ++ t) : first = second ∧ s = t := by
  by_cases hnil : first = []
  · by_cases hnil' : second = []
    · rw [hnil, hnil'] at heq
      exact ⟨hnil.trans hnil'.symm, heq⟩
    · have hne : second.map write ≠ [] := by simpa using hnil'
      have hs' : s = optionalLine label separator (second.map write) ++ t := by
        rw [← heq, hnil]
        rfl
      rw [hs', optionalLine_append label separator t hne] at hs
      exact absurd (List.prefix_append _ _) hs
  · have hne : first.map write ≠ [] := by simpa using hnil
    by_cases hnil' : second = []
    · have ht' : t = optionalLine label separator (first.map write) ++ s := by
        rw [heq, hnil']
        rfl
      rw [ht', optionalLine_append label separator s hne] at ht
      exact absurd (List.prefix_append _ _) ht
    · have hne' : second.map write ≠ [] := by simpa using hnil'
      rw [optionalLine_append label separator s hne, optionalLine_append label separator t hne',
        List.append_cancel_left_eq] at heq
      obtain ⟨hparts, hrest⟩ :=
        hwrite.joinedBy_append_inj hnil hnil' hfirst hsecond rfl rfl heq
      exact ⟨hparts, (List.cons.inj hrest).2⟩

theorem not_prefix_of_head?_ne {label t : Text} {c : Char} (hlabel : label.head? = some c)
    (ht : t.head? ≠ some c) : ¬ label <+: t := by
  rintro ⟨rest, rfl⟩
  rw [List.head?_append, hlabel] at ht
  exact ht rfl

theorem no_dependencyLabel_before (entry : Entry) {t : Text} (ht : t.head? ≠ some ' ') :
    ¬ dependencyLabel <+: entry.variableLine ++ t := by
  unfold Entry.variableLine optionalLine
  split
  · exact not_prefix_of_head?_ne rfl ht
  · intro hdependency
    rw [List.append_assoc, List.append_assoc] at hdependency
    have hlength : variableLabel.length ≤ dependencyLabel.length := by decide +kernel
    have hlabels : variableLabel <+: dependencyLabel :=
      List.prefix_of_prefix_length_le (List.prefix_append _ _) hdependency hlength
    exact absurd hlabels (by decide +kernel)

namespace Entry

theorem WellFormed.exists_head {entry : Entry} (hentry : entry.WellFormed) (t : Text) :
    ∃ c, (entry.text ++ t).head? = some c ∧ Header.isNameChar c = true := by
  obtain ⟨c, more, hname⟩ := List.exists_cons_of_ne_nil hentry.name_ne_nil
  have hmem : c ∈ entry.name := by
    rw [hname]
    exact List.mem_cons_self
  refine ⟨c, ?_, hentry.name c hmem⟩
  rw [text, hname]
  rfl

theorem head?_ne_space_of_follows {t : Text} (hfollows : Text.Follows text WellFormed (· = []) t) :
    t.head? ≠ some ' ' := by
  intro hspace
  cases hfollows with
  | stop hstop =>
      rw [hstop] at hspace
      contradiction
  | element entry t hentry =>
      obtain ⟨c, hc, hname⟩ := hentry.exists_head t
      rw [hspace] at hc
      obtain rfl := Option.some.inj hc
      exact absurd hname (by decide)

theorem WellFormed.text_append_inj {first second : Entry} {s t : Text}
    (hfirst : first.WellFormed) (hsecond : second.WellFormed) (hs : s.head? ≠ some ' ')
    (ht : t.head? ≠ some ' ') (heq : first.text ++ s = second.text ++ t) :
    first = second ∧ s = t := by
  have hnewline : ∀ (rest : Text) (c : Char), ('\n' :: rest).head? = some c →
      Header.isNameChar c = false := by
    rintro rest c ⟨rfl⟩
    decide
  simp only [text, List.append_assoc, List.cons_append] at heq
  obtain ⟨hname, hbehind⟩ :=
    Text.append_inj_of_head? hfirst.name hsecond.name (hnewline _) (hnewline _) heq
  have hlines := (List.cons.inj hbehind).2
  simp only [dependencyLine] at hlines
  obtain ⟨hdependencies, hvariables⟩ :=
    optionalLine_append_inj selfDelimiting_dependency hfirst.dependencies hsecond.dependencies
      (no_dependencyLabel_before first hs) (no_dependencyLabel_before second ht)
      (by simpa using hlines)
  obtain ⟨hrequired, hrest⟩ :=
    optionalLine_append_inj selfDelimiting_requirementText hfirst.required hsecond.required
      (not_prefix_of_head?_ne rfl hs) (not_prefix_of_head?_ne rfl ht) hvariables
  refine ⟨?_, hrest⟩
  cases first
  cases second
  simp only [mk.injEq]
  exact ⟨hname, hdependencies, hrequired⟩

end Entry

theorem selfDelimiting_entry :
    Text.SelfDelimiting Entry.text Entry.WellFormed (· = []) := by
  constructor
  · intro a b s t ha hb hs ht heq
    exact ha.text_append_inj hb (Entry.head?_ne_space_of_follows hs)
      (Entry.head?_ne_space_of_follows ht) heq
  · intro entry t hentry hnil
    obtain ⟨c, hc, _⟩ := hentry.exists_head t
    rw [hnil] at hc
    contradiction

/-- Two makefiles have the same listing if and only if they have the same entries. -/
theorem listing_eq_listing_iff (s t : Text) :
    listing (.ofText s) = listing (.ofText t) ↔ entries (.ofText s) = entries (.ofText t) := by
  constructor
  · intro heq
    rw [listing_eq_flatMap, listing_eq_flatMap] at heq
    have hrest := congrArg (· ++ []) heq
    exact (selfDelimiting_entry.flatMap_append_inj (fun _ => wellFormed_of_mem_entries)
      (fun _ => wellFormed_of_mem_entries) rfl rfl hrest).1
  · intro heq
    rw [listing_eq_flatMap, listing_eq_flatMap, heq]

end MakeOutline.CommandLine
