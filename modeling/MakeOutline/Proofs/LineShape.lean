import Mathlib.Data.List.TakeWhile
import MakeOutline.Line

/-!
# The shape of assignments and headers

An assignment holds an equals sign and a header holds none, so no line is both.
A text that is read as a header starts with a name, so it is neither blank nor a
comment, and the kind of such a line hangs only on whether it is continued.
-/

namespace MakeOutline

theorem Text.mem_dropWhile_of_mem {c : Char} {p : Char → Bool} {t : Text}
    (hmem : c ∈ t) (hc : p c = false) : c ∈ t.dropWhile p := by
  rw [← List.takeWhile_append_dropWhile (p := p) (l := t), List.mem_append] at hmem
  rcases hmem with htaken | hdropped
  · have htrue := List.mem_takeWhile_imp htaken
    rw [hc] at htrue
    contradiction
  · exact hdropped

theorem Text.trimStart_suffix (t : Text) : t.trimStart <:+ t :=
  List.dropWhile_suffix isBlank

/-! ## Assignments -/

theorem VariableName.suffix_of_split? {t name rest : Text}
    (hsplit : VariableName.split? t = some (name, rest)) : rest <:+ t := by
  cases t with
  | nil => simp [VariableName.split?] at hsplit
  | cons c t =>
      simp only [VariableName.split?, Option.ite_none_right_eq_some,
        Option.some.injEq, Prod.mk.injEq] at hsplit
      rw [← hsplit.2.2]
      exact (List.dropWhile_suffix VariableName.isPart).trans (List.suffix_cons c t)

namespace Assignment

theorem dropFlavour_suffix (t : Text) : dropFlavour t <:+ t := by
  unfold dropFlavour
  split
  · exact List.suffix_cons _ _
  · exact List.suffix_cons _ _
  · exact List.suffix_cons _ _
  · exact List.suffix_rfl

theorem equals_mem_of_ofLine? {line : Text} {a : Assignment}
    (hread : ofLine? line = some a) : '=' ∈ line := by
  unfold ofLine? at hread
  split at hread
  next => simp at hread
  next name rest hsplit =>
    split at hread
    next value hvalue =>
      have hrest : '=' ∈ rest := by
        apply (rest.trimStart_suffix).subset
        apply (dropFlavour_suffix rest.trimStart).subset
        rw [hvalue]
        exact List.mem_cons_self
      apply (line.trimStart_suffix).subset
      exact (VariableName.suffix_of_split? hsplit).subset hrest
    next => simp at hread

end Assignment

/-! ## Headers -/

namespace Header

theorem exists_rest_of_ofLine? {line : Text} {header : Header}
    (hread : ofLine? line = some header) :
    startsIndented line = false ∧
      ∃ rest,
        Text.trimStart (line.trimStart.dropWhile isNameChar) = ':' :: rest ∧
          line.trimStart.takeWhile isNameChar ≠ [] ∧ '=' ∉ rest ∧
            header = ⟨line.trimStart.takeWhile isNameChar, Text.trim rest⟩ := by
  unfold ofLine? at hread
  split at hread
  next => simp at hread
  next hindent =>
    refine ⟨by simpa using hindent, ?_⟩
    simp only at hread
    split at hread
    next rest hcolon =>
      simp only [Option.ite_none_left_eq_some, Bool.or_eq_true, not_or,
        Option.some.injEq] at hread
      obtain ⟨⟨hname, hequals⟩, rfl⟩ := hread
      exact ⟨rest, hcolon, by simpa using hname, by simpa using hequals, rfl⟩
    next => simp at hread

theorem equals_not_mem_of_ofLine? {line : Text} {header : Header}
    (hread : ofLine? line = some header) : '=' ∉ line := by
  obtain ⟨_, rest, hcolon, _, hrest, _⟩ := exists_rest_of_ofLine? hread
  intro hmem
  have hafterName :
      '=' ∈ Text.trimStart (line.trimStart.dropWhile isNameChar) := by
    apply Text.mem_dropWhile_of_mem _ (by decide)
    apply Text.mem_dropWhile_of_mem _ (by decide)
    exact Text.mem_dropWhile_of_mem hmem (by decide)
  rw [hcolon, List.mem_cons] at hafterName
  rcases hafterName with heq | htail
  · exact absurd heq (by decide)
  · exact hrest htail

/-- A header starts with a name, and so with none of the other characters. -/
theorem exists_nameChar_of_ofLine? {line : Text} {header : Header}
    (hread : ofLine? line = some header) :
    ∃ c t, line.trimStart = c :: t ∧ isNameChar c = true := by
  obtain ⟨_, _, _, hname, _⟩ := exists_rest_of_ofLine? hread
  cases htrim : line.trimStart with
  | nil => simp [htrim] at hname
  | cons c t =>
      refine ⟨c, t, rfl, ?_⟩
      rw [htrim, List.takeWhile_cons] at hname
      by_contra hc
      simp [hc] at hname

end Header

/-! ## Kinds of lines -/

namespace Line

theorem not_blankOrComment_of_header {line : Text} {header : Header}
    (hread : Header.ofLine? line = some header) :
    isBlankOrComment line = false := by
  obtain ⟨c, t, htrim, hc⟩ := Header.exists_nameChar_of_ofLine? hread
  have hne : c ≠ '#' := by
    rintro rfl
    exact absurd hc (by decide)
  simp [isBlankOrComment, htrim, hne]

theorem assignment_eq_none_of_header {line : Text} {header : Header}
    (hread : Header.ofLine? line = some header) : Assignment.ofLine? line = none := by
  cases hassign : Assignment.ofLine? line with
  | none => rfl
  | some a =>
      have hmem := Assignment.equals_mem_of_ofLine? hassign
      exact absurd hmem (Header.equals_not_mem_of_ofLine? hread)

/-- A text that is read as a header is the header of a rule unless it goes on in
the next line. -/
theorem ofText_eq_header {line : Text} {header : Header}
    (hread : Header.ofLine? line = some header) (hends : isContinued line = false) :
    ofText line = .header header := by
  simp [ofText, not_blankOrComment_of_header hread, assignment_eq_none_of_header hread,
    hends, hread]

theorem assignment_of_ofText {line : Text} {a : Assignment}
    (hkind : ofText line = .assignment a) : Assignment.ofLine? line = some a := by
  unfold ofText at hkind
  split at hkind
  next => simp at hkind
  next =>
    split at hkind
    next found hfound =>
      simp only [assignment.injEq] at hkind
      rw [hfound, hkind]
    next =>
      split at hkind
      next => simp at hkind
      next =>
        split at hkind <;> simp at hkind

theorem header_of_ofText {line : Text} {header : Header}
    (hkind : ofText line = .header header) : Header.ofLine? line = some header := by
  unfold ofText at hkind
  split at hkind
  next => contradiction
  next =>
    split at hkind
    next => contradiction
    next =>
      split at hkind
      next found hfound =>
        obtain ⟨rfl⟩ := hkind
        exact (Option.ite_none_left_eq_some.mp hfound).2
      next =>
        split at hkind <;> contradiction

theorem assignment_of_assignment? {line : Text} {a : Assignment}
    (hkind : (ofText line).assignment? = some a) : Assignment.ofLine? line = some a := by
  apply assignment_of_ofText
  cases hline : ofText line with
  | assignment b => rw [hline] at hkind; exact congrArg _ (Option.some.inj hkind)
  | blank | header h | command text | other => rw [hline] at hkind; contradiction

theorem equals_mem_of_assignment {line : Text} {a : Assignment}
    (hkind : ofText line = .assignment a) : '=' ∈ line :=
  Assignment.equals_mem_of_ofLine? (assignment_of_ofText hkind)

theorem assignment?_eq_none_of_equals_not_mem {line : Text} (hequals : '=' ∉ line) :
    (ofText line).assignment? = none := by
  cases hkind : ofText line with
  | assignment a => exact absurd (equals_mem_of_assignment hkind) hequals
  | blank => rfl
  | header h => rfl
  | command text => rfl
  | other => rfl

end Line

end MakeOutline
