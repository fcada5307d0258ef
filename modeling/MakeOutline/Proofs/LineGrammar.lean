import MakeOutline.Proofs.LineShape

/-!
# The grammar of a line

What a line is, said by how its text can be cut and with no order of scanning.
Without its leading blanks an assignment is a name, blanks, perhaps the mark of a
flavour, an equals sign and a value; a header is a name, blanks, a colon and a
rest without an equals sign.  No text can be cut in both ways, nor twice in one of
them.  So the scanner, which takes the longest name and the longest run of blanks
and never goes back, finds every cut that there is.
-/

namespace MakeOutline

/-! ## Where a run of characters ends -/

namespace Text

variable {p : Char → Bool} {s t : Text}

theorem takeWhile_append_of_head? (hs : ∀ c ∈ s, p c = true)
    (ht : ∀ c, t.head? = some c → p c = false) : (s ++ t).takeWhile p = s := by
  rw [List.takeWhile_append_of_pos hs]
  cases t with
  | nil => simp
  | cons c t => simp [ht c rfl]

theorem dropWhile_append_of_head? (hs : ∀ c ∈ s, p c = true)
    (ht : ∀ c, t.head? = some c → p c = false) : (s ++ t).dropWhile p = t := by
  rw [List.dropWhile_append_of_pos hs]
  cases t with
  | nil => rfl
  | cons c t => simp [ht c rfl]

theorem mem_or_head?_of_head?_append {c : Char} (hhead : (s ++ t).head? = some c) :
    c ∈ s ∨ t.head? = some c := by
  rw [List.head?_append, Option.or_eq_some_iff] at hhead
  exact hhead.imp List.mem_of_head? And.right

theorem head?_dropWhile {c : Char} (hhead : (t.dropWhile p).head? = some c) : p c = false := by
  have hstop := List.head?_dropWhile_not p t
  rw [hhead] at hstop
  exact hstop

end Text

theorem isAlphanum_eq (c : Char) : c.isAlphanum = (c.isUpper || c.isLower || c.isDigit) :=
  rfl

namespace VariableName

theorem isNameChar_of_isPart {c : Char} (hc : isPart c = true) : Header.isNameChar c = true := by
  simp only [isPart, Bool.or_eq_true] at hc
  simp only [Header.isNameChar, isAlphanum_eq, Bool.or_eq_true]
  rcases hc with (hupper | hdigit) | hunderscore
  · simp [hupper]
  · simp [hdigit]
  · simp [hunderscore]

theorem isPart_of_accepts {name : Text} (hname : accepts name = true) :
    ∀ c ∈ name, isPart c = true := by
  intro c hc
  cases name with
  | nil => simp [accepts] at hname
  | cons first more =>
      simp only [accepts, Bool.and_eq_true, List.all_eq_true] at hname
      rcases List.mem_cons.mp hc with rfl | hmore
      · have hstart := hname.1
        simp only [isStart, Bool.or_eq_true] at hstart
        simp only [isPart, Bool.or_eq_true]
        exact hstart.imp_left Or.inl
      · exact hname.2 c hmore

theorem isNameChar_of_accepts {name : Text} (hname : accepts name = true) :
    ∀ c ∈ name, Header.isNameChar c = true :=
  fun c hc => isNameChar_of_isPart (isPart_of_accepts hname c hc)

/-- The scanner takes the longest name. -/
theorem split?_eq_some_iff {t name rest : Text} :
    split? t = some (name, rest) ↔
      t = name ++ rest ∧ accepts name = true ∧ ∀ c, rest.head? = some c → isPart c = false := by
  constructor
  · intro hsplit
    cases t with
    | nil => simp [split?] at hsplit
    | cons first more =>
        simp only [split?, Option.ite_none_right_eq_some, Option.some.injEq,
          Prod.mk.injEq] at hsplit
        obtain ⟨hstart, rfl, rfl⟩ := hsplit
        refine ⟨?_, ?_, fun c => Text.head?_dropWhile⟩
        · rw [List.cons_append, List.takeWhile_append_dropWhile]
        · simp only [accepts, hstart, Bool.true_and, List.all_eq_true]
          exact fun c => List.mem_takeWhile_imp
  · rintro ⟨rfl, hname, hrest⟩
    cases name with
    | nil => simp [accepts] at hname
    | cons first more =>
        simp only [accepts, Bool.and_eq_true, List.all_eq_true] at hname
        rw [List.cons_append, split?, if_pos hname.1,
          Text.takeWhile_append_of_head? hname.2 hrest,
          Text.dropWhile_append_of_head? hname.2 hrest]

end VariableName

theorem Header.toNat_of_isNameChar {c : Char} (hc : isNameChar c = true) :
    0x20 < c.toNat ∧ c.toNat < 0x80 := by
  have hupper : c.isUpper = decide ('A'.val ≤ c.val ∧ c.val ≤ 'Z'.val) := rfl
  have hlower : c.isLower = (decide ('a'.val ≤ c.val) && decide (c.val ≤ 'z'.val)) := rfl
  have hdigit : c.isDigit = (decide ('0'.val ≤ c.val) && decide (c.val ≤ '9'.val)) := rfl
  simp only [isNameChar, isAlphanum_eq, hupper, hlower, hdigit, Bool.or_eq_true,
    Bool.and_eq_true, decide_eq_true_eq, beq_iff_eq] at hc
  rcases hc with (((((hrange | hrange) | hrange) | rfl) | rfl) | rfl) | rfl
  · exact ⟨Nat.lt_of_lt_of_le (by decide) hrange.1, Nat.lt_of_le_of_lt hrange.2 (by decide)⟩
  · exact ⟨Nat.lt_of_lt_of_le (by decide) hrange.1, Nat.lt_of_le_of_lt hrange.2 (by decide)⟩
  · exact ⟨Nat.lt_of_lt_of_le (by decide) hrange.1, Nat.lt_of_le_of_lt hrange.2 (by decide)⟩
  all_goals decide

theorem Header.isBlank_eq_false_of_isNameChar {c : Char} (hc : isNameChar c = true) :
    isBlank c = false := by
  have hvisible := toNat_of_isNameChar hc
  -- Between the space and the end of ASCII there is no blank.
  simp only [isBlank, blankRanges, inRanges]
  grind

theorem Header.isNameChar_eq_false_of_isBlank {c : Char} (hc : isBlank c = true) :
    isNameChar c = false := by
  by_contra hname
  rw [isBlank_eq_false_of_isNameChar (by simpa using hname)] at hc
  contradiction

theorem VariableName.isPart_eq_false_of_isNameChar {c : Char}
    (hc : Header.isNameChar c = false) : isPart c = false := by
  by_contra hpart
  rw [isNameChar_of_isPart (by simpa using hpart)] at hc
  contradiction

theorem Text.trimStart_append_of_head? {s t : Text} (hs : ∀ c ∈ s, isBlank c = true)
    (ht : ∀ c, t.head? = some c → isBlank c = false) : (s ++ t).trimStart = t :=
  dropWhile_append_of_head? hs ht

/-! ## Assignments -/

namespace Assignment

structure Parts where
  name : Text
  blanks : Text
  mark : Text
  value : Text

namespace Parts

/-- What stands behind the name. -/
def behindName (parts : Parts) : Text := parts.blanks ++ (parts.mark ++ '=' :: parts.value)

def assignment (parts : Parts) : Assignment := ⟨parts.name, parts.value.trim⟩

/-- The parts one after the other are the text, and each is what it has to be. -/
structure Spell (parts : Parts) (t : Text) : Prop where
  text_eq : t = parts.name ++ parts.behindName
  name : VariableName.accepts parts.name = true
  blanks : ∀ c ∈ parts.blanks, isBlank c = true
  mark : parts.mark = [] ∨ parts.mark = [':'] ∨ parts.mark = ['+'] ∨ parts.mark = ['?']

variable {parts other : Parts} {t : Text}

theorem Spell.trimStart_behindName (hspell : parts.Spell t) :
    parts.behindName.trimStart = parts.mark ++ '=' :: parts.value := by
  apply Text.trimStart_append_of_head? hspell.blanks
  rcases hspell.mark with hmark | hmark | hmark | hmark <;>
    · rw [hmark]
      rintro c ⟨rfl⟩
      decide

theorem Spell.dropFlavour_eq (hspell : parts.Spell t) :
    dropFlavour (parts.mark ++ '=' :: parts.value) = '=' :: parts.value := by
  rcases hspell.mark with hmark | hmark | hmark | hmark <;> rw [hmark] <;> rfl

theorem Spell.split?_eq (hspell : parts.Spell t) :
    VariableName.split? t = some (parts.name, parts.behindName) := by
  refine VariableName.split?_eq_some_iff.mpr ⟨hspell.text_eq, hspell.name, ?_⟩
  intro c hhead
  apply VariableName.isPart_eq_false_of_isNameChar
  rcases Text.mem_or_head?_of_head?_append hhead with hblank | hmarked
  · exact Header.isNameChar_eq_false_of_isBlank (hspell.blanks c hblank)
  · rcases hspell.mark with hmark | hmark | hmark | hmark <;>
      · rw [hmark] at hmarked
        obtain ⟨rfl⟩ := hmarked
        decide

theorem Spell.unique (hspell : parts.Spell t) (hother : other.Spell t) : parts = other := by
  have hsplit := hspell.split?_eq
  rw [hother.split?_eq, Option.some.injEq, Prod.mk.injEq] at hsplit
  have hmark : parts.mark ++ '=' :: parts.value = other.mark ++ '=' :: other.value := by
    rw [← hspell.trimStart_behindName, ← hother.trimStart_behindName, hsplit.2]
  have hvalue : '=' :: parts.value = '=' :: other.value := by
    rw [← hspell.dropFlavour_eq, ← hother.dropFlavour_eq, hmark]
  have hblanks := hsplit.2
  rw [behindName, behindName, hmark, List.append_cancel_right_eq] at hblanks
  rw [hvalue, List.append_cancel_right_eq] at hmark
  cases parts
  cases other
  simp_all

theorem Spell.equals_mem (hspell : parts.Spell t) : '=' ∈ t := by
  rw [hspell.text_eq, behindName]
  simp

end Parts

theorem exists_mark_of_dropFlavour {t value : Text} (hdrop : dropFlavour t = '=' :: value) :
    ∃ mark, t = mark ++ '=' :: value ∧
      (mark = [] ∨ mark = [':'] ∨ mark = ['+'] ∨ mark = ['?']) := by
  unfold dropFlavour at hdrop
  split at hdrop <;> subst hdrop
  · exact ⟨[':'], rfl, by simp⟩
  · exact ⟨['+'], rfl, by simp⟩
  · exact ⟨['?'], rfl, by simp⟩
  · exact ⟨[], rfl, by simp⟩

theorem ofLine?_eq_some_iff {line : Text} {a : Assignment} :
    ofLine? line = some a ↔ ∃ parts : Parts, parts.Spell line.trimStart ∧ parts.assignment = a := by
  constructor
  · intro hread
    unfold ofLine? at hread
    split at hread
    next => contradiction
    next name rest hsplit =>
      split at hread
      next value hvalue =>
        obtain ⟨rfl⟩ := hread
        obtain ⟨htext, hname, _⟩ := VariableName.split?_eq_some_iff.mp hsplit
        obtain ⟨mark, hmark, hcases⟩ := exists_mark_of_dropFlavour hvalue
        refine ⟨⟨name, rest.takeWhile isBlank, mark, value⟩, ?_, rfl⟩
        refine ⟨?_, hname, fun c => List.mem_takeWhile_imp, hcases⟩
        rw [Parts.behindName, ← hmark, htext]
        exact congrArg _ List.takeWhile_append_dropWhile.symm
      next => contradiction
  · rintro ⟨parts, hspell, rfl⟩
    unfold ofLine?
    rw [hspell.split?_eq]
    simp only
    rw [hspell.trimStart_behindName, hspell.dropFlavour_eq]
    rfl

end Assignment

/-! ## Headers -/

namespace Header

structure Parts where
  name : Text
  blanks : Text
  rest : Text

namespace Parts

def behindName (parts : Parts) : Text := parts.blanks ++ ':' :: parts.rest

def header (parts : Parts) : Header := ⟨parts.name, parts.rest.trim⟩

/-- The parts one after the other are the text, and each is what it has to be. -/
structure Spell (parts : Parts) (t : Text) : Prop where
  text_eq : t = parts.name ++ parts.behindName
  name_ne_nil : parts.name ≠ []
  name : ∀ c ∈ parts.name, isNameChar c = true
  blanks : ∀ c ∈ parts.blanks, isBlank c = true
  rest : '=' ∉ parts.rest

variable {parts other : Parts} {t : Text}

theorem Spell.trimStart_behindName (hspell : parts.Spell t) :
    parts.behindName.trimStart = ':' :: parts.rest := by
  apply Text.trimStart_append_of_head? hspell.blanks
  rintro c ⟨rfl⟩
  decide

theorem Spell.not_isNameChar_head? (hspell : parts.Spell t) (c : Char)
    (hhead : parts.behindName.head? = some c) : isNameChar c = false := by
  rcases Text.mem_or_head?_of_head?_append hhead with hblank | hcolon
  · exact isNameChar_eq_false_of_isBlank (hspell.blanks c hblank)
  · obtain ⟨rfl⟩ := hcolon
    decide

theorem Spell.takeWhile_eq (hspell : parts.Spell t) : t.takeWhile isNameChar = parts.name := by
  rw [hspell.text_eq]
  exact Text.takeWhile_append_of_head? hspell.name hspell.not_isNameChar_head?

theorem Spell.dropWhile_eq (hspell : parts.Spell t) :
    t.dropWhile isNameChar = parts.behindName := by
  rw [hspell.text_eq]
  exact Text.dropWhile_append_of_head? hspell.name hspell.not_isNameChar_head?

theorem Spell.takeWhile_ne_colon (hspell : parts.Spell t) :
    t.takeWhile (· != ':') = parts.name ++ parts.blanks := by
  have hfront : ∀ c ∈ parts.name ++ parts.blanks, (c != ':') = true := by
    intro c hc
    by_contra heq
    obtain rfl : c = ':' := by simpa using heq
    rcases List.mem_append.mp hc with hname | hblank
    · exact absurd (hspell.name ':' hname) (by decide)
    · exact absurd (hspell.blanks ':' hblank) (by decide)
  rw [hspell.text_eq, behindName, ← List.append_assoc]
  apply Text.takeWhile_append_of_head? hfront
  rintro c ⟨rfl⟩
  decide

theorem Spell.unique (hspell : parts.Spell t) (hother : other.Spell t) : parts = other := by
  have hname : parts.name = other.name := by
    rw [← hspell.takeWhile_eq, hother.takeWhile_eq]
  have hbehind : parts.behindName = other.behindName := by
    rw [← hspell.dropWhile_eq, hother.dropWhile_eq]
  have hrest : ':' :: parts.rest = ':' :: other.rest := by
    rw [← hspell.trimStart_behindName, ← hother.trimStart_behindName, hbehind]
  rw [behindName, behindName, hrest, List.append_cancel_right_eq] at hbehind
  cases parts
  cases other
  simp_all

theorem Spell.equals_not_mem (hspell : parts.Spell t) : '=' ∉ t := by
  rw [hspell.text_eq, behindName, List.mem_append, List.mem_append, List.mem_cons]
  rintro (hname | hblank | hcolon | hrest)
  · exact absurd (hspell.name _ hname) (by decide)
  · exact absurd (hspell.blanks _ hblank) (by decide)
  · exact absurd hcolon (by decide)
  · exact hspell.rest hrest

end Parts

theorem ofLine?_eq_some_iff {line : Text} {header : Header} :
    ofLine? line = some header ↔
      startsIndented line = false ∧
        ∃ parts : Parts, parts.Spell line.trimStart ∧ parts.header = header := by
  constructor
  · intro hread
    obtain ⟨hindent, rest, hcolon, hname, hrest, rfl⟩ := exists_rest_of_ofLine? hread
    refine ⟨hindent, ⟨line.trimStart.takeWhile isNameChar,
      (line.trimStart.dropWhile isNameChar).takeWhile isBlank, rest⟩, ?_, rfl⟩
    refine ⟨?_, hname, fun c => List.mem_takeWhile_imp, fun c => List.mem_takeWhile_imp, hrest⟩
    rw [Parts.behindName, ← hcolon]
    exact (List.takeWhile_append_dropWhile.symm.trans
      (congrArg _ List.takeWhile_append_dropWhile.symm))
  · rintro ⟨hindent, parts, hspell, rfl⟩
    unfold ofLine?
    rw [hindent]
    simp only [Bool.false_eq_true, if_false]
    rw [hspell.dropWhile_eq, hspell.trimStart_behindName, hspell.takeWhile_eq]
    simp [hspell.name_ne_nil, hspell.rest, Parts.header]

end Header

/-! ## Lines -/

namespace Line

def BlankOrComment (line : Text) : Prop := line.trimStart = [] ∨ ['#'] <+: line.trimStart

def GoesOn (line : Text) : Prop := ['\\'] <:+ line

def Indented (line : Text) : Prop := ['\t'] <+: line ∨ [' ', ' '] <+: line

structure HeaderCut (line : Text) (parts : Header.Parts) : Prop where
  ends : ¬ GoesOn line
  flush : ¬ Indented line
  spell : parts.Spell line.trimStart

/-- All tabs and spaces in front are indentation, and the rest is the command. -/
structure CommandCut (line indentation text : Text) : Prop where
  indented : Indented line
  line_eq : line = indentation ++ text
  indentation : ∀ c ∈ indentation, c = '\t' ∨ c = ' '
  text : ∀ c, text.head? = some c → ¬ (c = '\t' ∨ c = ' ')

/-- The rules for a line.  Each applies where none of those above it does. -/
inductive Reads (line : Text) : Line → Prop where
  | blank (hblank : BlankOrComment line) : Reads line .blank
  | assignment (parts : Assignment.Parts) (hblank : ¬ BlankOrComment line)
      (hassign : parts.Spell line.trimStart) : Reads line (.assignment parts.assignment)
  | header (parts : Header.Parts) (hblank : ¬ BlankOrComment line)
      (hassign : ¬ ∃ parts : Assignment.Parts, parts.Spell line.trimStart)
      (hheader : HeaderCut line parts) : Reads line (.header parts.header)
  | command (indentation text : Text) (hblank : ¬ BlankOrComment line)
      (hassign : ¬ ∃ parts : Assignment.Parts, parts.Spell line.trimStart)
      (hheader : ¬ ∃ parts, HeaderCut line parts)
      (hcommand : CommandCut line indentation text) : Reads line (.command text)
  | other (hblank : ¬ BlankOrComment line)
      (hassign : ¬ ∃ parts : Assignment.Parts, parts.Spell line.trimStart)
      (hheader : ¬ ∃ parts, HeaderCut line parts)
      (hindent : ¬ Indented line) : Reads line .other

variable {line : Text}

theorem isBlankOrComment_iff : isBlankOrComment line = true ↔ BlankOrComment line := by
  unfold isBlankOrComment BlankOrComment
  cases line.trimStart with
  | nil => simp
  | cons c t => simp [@eq_comm _ c '#']

theorem isContinued_iff_goesOn : isContinued line = true ↔ GoesOn line := by
  unfold isContinued GoesOn
  rw [beq_iff_eq, List.getLast?_eq_some_iff]
  exact exists_congr fun _ => eq_comm

theorem startsIndented_iff_indented : startsIndented line = true ↔ Indented line := by
  unfold startsIndented Indented
  split
  next => simp
  next => simp
  next htab hspaces =>
    simp only [Bool.false_eq_true, false_iff, not_or]
    constructor
    · rintro ⟨rest, rfl⟩
      exact htab rest rfl
    · rintro ⟨rest, rfl⟩
      exact hspaces rest rfl

theorem exists_headerCut_iff {header : Header} :
    (if isContinued line then none else Header.ofLine? line) = some header ↔
      ∃ parts, HeaderCut line parts ∧ parts.header = header := by
  rw [Option.ite_none_left_eq_some, isContinued_iff_goesOn, Header.ofLine?_eq_some_iff,
    ← Bool.not_eq_true, startsIndented_iff_indented]
  constructor
  · rintro ⟨hends, hflush, parts, hspell, hheader⟩
    exact ⟨parts, ⟨hends, hflush, hspell⟩, hheader⟩
  · rintro ⟨parts, ⟨hends, hflush, hspell⟩, hheader⟩
    exact ⟨hends, hflush, parts, hspell, hheader⟩

theorem not_exists_headerCut_iff :
    (if isContinued line then none else Header.ofLine? line) = none ↔
      ¬ ∃ parts, HeaderCut line parts := by
  rw [Option.eq_none_iff_forall_ne_some]
  simp only [ne_eq, exists_headerCut_iff]
  constructor
  · rintro hnone ⟨parts, hcut⟩
    exact hnone parts.header ⟨parts, hcut, rfl⟩
  · rintro hnone header ⟨parts, hcut, _⟩
    exact hnone ⟨parts, hcut⟩

theorem not_exists_spell_iff :
    Assignment.ofLine? line = none ↔
      ¬ ∃ parts : Assignment.Parts, parts.Spell line.trimStart := by
  rw [Option.eq_none_iff_forall_ne_some]
  simp only [ne_eq, Assignment.ofLine?_eq_some_iff]
  constructor
  · rintro hnone ⟨parts, hspell⟩
    exact hnone parts.assignment ⟨parts, hspell, rfl⟩
  · rintro hnone a ⟨parts, hspell, _⟩
    exact hnone ⟨parts, hspell⟩

theorem commandCut_dropWhile (hindent : Indented line) :
    CommandCut line (line.takeWhile fun c => c == '\t' || c == ' ')
      (line.dropWhile fun c => c == '\t' || c == ' ') := by
  constructor
  · exact hindent
  · exact List.takeWhile_append_dropWhile.symm
  · intro c hc
    simpa using List.mem_takeWhile_imp hc
  · intro c hhead
    simpa using Text.head?_dropWhile hhead

theorem CommandCut.dropWhile_eq {indentation text : Text}
    (hcut : CommandCut line indentation text) :
    (line.dropWhile fun c => c == '\t' || c == ' ') = text := by
  rw [hcut.line_eq]
  apply Text.dropWhile_append_of_head?
  · simpa using hcut.indentation
  · simpa using hcut.text

/-- A command keeps what made its line not blank. -/
theorem CommandCut.exists_not_blank {indentation text : Text}
    (hcut : CommandCut line indentation text) (hblank : ¬ BlankOrComment line) :
    ∃ c ∈ text, isBlank c = false := by
  by_contra hall
  apply hblank
  left
  apply List.dropWhile_eq_nil_iff.mpr
  intro c hc
  rw [hcut.line_eq, List.mem_append] at hc
  rcases hc with hfront | htext
  · rcases hcut.indentation c hfront with rfl | rfl <;> decide
  · by_contra hvisible
    exact hall ⟨c, htext, by simpa using hvisible⟩

theorem reads_ofText (line : Text) : Reads line (ofText line) := by
  unfold ofText
  split
  next hblank => exact .blank (isBlankOrComment_iff.mp hblank)
  next hblank =>
    rw [isBlankOrComment_iff] at hblank
    split
    next a hread =>
      obtain ⟨parts, hspell, rfl⟩ := Assignment.ofLine?_eq_some_iff.mp hread
      exact .assignment parts hblank hspell
    next hassign =>
      rw [not_exists_spell_iff] at hassign
      split
      next header hread =>
        obtain ⟨parts, hcut, rfl⟩ := exists_headerCut_iff.mp hread
        exact .header parts hblank hassign hcut
      next hheader =>
        rw [not_exists_headerCut_iff] at hheader
        split
        next hindent =>
          rw [startsIndented_iff_indented] at hindent
          exact .command _ _ hblank hassign hheader (commandCut_dropWhile hindent)
        next hindent =>
          rw [startsIndented_iff_indented] at hindent
          exact .other hblank hassign hheader hindent

theorem Reads.ofText_eq {kind : Line} (hreads : Reads line kind) : ofText line = kind := by
  cases hreads with
  | blank hblank => simp [ofText, isBlankOrComment_iff.mpr hblank]
  | assignment parts hblank hassign =>
      rw [← isBlankOrComment_iff] at hblank
      simp [ofText, hblank, Assignment.ofLine?_eq_some_iff.mpr ⟨parts, hassign, rfl⟩]
  | header parts hblank hassign hheader =>
      rw [← isBlankOrComment_iff] at hblank
      rw [← not_exists_spell_iff] at hassign
      simp only [ofText, hblank, hassign, exists_headerCut_iff.mpr ⟨parts, hheader, rfl⟩]
      simp
  | command indentation text hblank hassign hheader hcommand =>
      rw [← isBlankOrComment_iff] at hblank
      rw [← not_exists_spell_iff] at hassign
      rw [← not_exists_headerCut_iff] at hheader
      have hindent := startsIndented_iff_indented.mpr hcommand.indented
      simp only [ofText, hblank, hassign, hheader, hindent, hcommand.dropWhile_eq]
      simp
  | other hblank hassign hheader hindent =>
      rw [← isBlankOrComment_iff] at hblank
      rw [← not_exists_spell_iff] at hassign
      rw [← not_exists_headerCut_iff] at hheader
      rw [← startsIndented_iff_indented] at hindent
      simp only [ofText, hblank, hassign, hheader, hindent]
      simp

/-- A line is what the rules make of it and nothing else.  Where a text can be cut
as an assignment or as a header, there is one such cut, and not one of each; and
no command is blank. -/
theorem ofText_exactly_grammar (line : Text) :
    (∀ kind, ofText line = kind ↔ Reads line kind) ∧
      (∀ (t : Text) (parts other : Assignment.Parts),
        parts.Spell t → other.Spell t → parts = other) ∧
      (∀ (t : Text) (parts other : Header.Parts),
        parts.Spell t → other.Spell t → parts = other) ∧
      (∀ (t : Text) (parts : Assignment.Parts) (other : Header.Parts),
        ¬ (parts.Spell t ∧ other.Spell t)) ∧
      ∀ text, ofText line = .command text → ∃ c ∈ text, isBlank c = false := by
  refine ⟨?_, ?_, ?_, ?_, ?_⟩
  · intro kind
    constructor
    · rintro rfl
      exact reads_ofText line
    · exact Reads.ofText_eq
  · exact fun t parts other => Assignment.Parts.Spell.unique
  · exact fun t parts other => Header.Parts.Spell.unique
  · rintro t parts other ⟨hassign, hheader⟩
    exact hheader.equals_not_mem hassign.equals_mem
  · intro text hkind
    have hreads := reads_ofText line
    rw [hkind] at hreads
    cases hreads with
    | command indentation _ hblank _ _ hcommand => exact hcommand.exists_not_blank hblank

end Line

end MakeOutline
