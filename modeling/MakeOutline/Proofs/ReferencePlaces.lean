import MakeOutline.Proofs.LineGrammar
import MakeOutline.Reference

/-!
# Where references stand

A reference stands wherever one is written.  Its only dollar is the one that it begins
with, so no two references share a character, and reading from left to right passes over
none.  Among the bytes of a text there are no other references than among its characters,
because bytes that encode a text begin and end where characters do.
-/

namespace MakeOutline

/-! ## The reference that starts a text -/

theorem VariableName.dollar_not_mem {name : Text} (hname : accepts name = true) :
    '$' ∉ name := by
  intro hmem
  exact absurd (isNameChar_of_accepts hname '$' hmem) (by decide)

namespace Fragment

theorem closedName?_eq_some_iff {bracket : Bracket} {t name rest : Text} :
    closedName? bracket t = some (name, rest) ↔
      t = name ++ bracket.closing :: rest ∧ VariableName.accepts name = true := by
  constructor
  · intro hread
    refine ⟨append_of_closedName? hread, ?_⟩
    unfold closedName? at hread
    split at hread
    next found c tail hsplit =>
      rw [Option.ite_none_right_eq_some, Option.some.injEq, Prod.mk.injEq] at hread
      rw [← hread.2.1]
      exact (VariableName.split?_eq_some_iff.mp hsplit).2.1
    next => contradiction
  · rintro ⟨rfl, hname⟩
    have hends : ∀ c, (bracket.closing :: rest).head? = some c →
        VariableName.isPart c = false := by
      rintro c ⟨rfl⟩
      cases bracket <;> decide
    rw [closedName?, VariableName.split?_eq_some_iff.mpr ⟨rfl, hname, hends⟩]
    simp

theorem leadingReference?_reference_append (bracket : Bracket) {name : Text} (rest : Text)
    (hname : VariableName.accepts name = true) :
    leadingReference? ((reference bracket name).written ++ rest) =
      some (reference bracket name, rest) := by
  have hclosed : closedName? bracket (name ++ bracket.closing :: rest) = some (name, rest) :=
    closedName?_eq_some_iff.mpr ⟨rfl, hname⟩
  cases bracket <;> simp [written, Bracket.opening, leadingReference?, hclosed]

theorem exists_of_leadingReference? {t rest : Text} {fragment : Fragment}
    (hread : leadingReference? t = some (fragment, rest)) :
    ∃ bracket name, fragment = reference bracket name ∧ VariableName.accepts name = true := by
  have hnamed : ∀ {bracket : Bracket} {u : Text},
      (closedName? bracket u).map (fun closed => (reference bracket closed.1, closed.2)) =
        some (fragment, rest) →
      ∃ bracket name, fragment = reference bracket name ∧ VariableName.accepts name = true := by
    intro bracket u hmap
    obtain ⟨⟨name, tail⟩, hclosed, hpair⟩ := Option.map_eq_some_iff.mp hmap
    exact ⟨bracket, name, (Prod.mk.inj hpair).1.symm, (closedName?_eq_some_iff.mp hclosed).2⟩
  unfold leadingReference? at hread
  split at hread
  next => exact hnamed hread
  next => exact hnamed hread
  next => contradiction

theorem dollar_not_mem_tail_written (bracket : Bracket) {name : Text}
    (hname : VariableName.accepts name = true) :
    '$' ∉ (reference bracket name).written.tail := by
  have hdollar := VariableName.dollar_not_mem hname
  cases bracket <;> simp [written, Bracket.opening, Bracket.closing, hdollar]

/-- A dollar further on does not stand in the reference that starts the text. -/
theorem exists_eq_written_append {bracket : Bracket} {name before after rest : Text}
    (hname : VariableName.accepts name = true) (hbefore : before ≠ [])
    (heq : before ++ '$' :: after = (reference bracket name).written ++ rest) :
    ∃ between, before = (reference bracket name).written ++ between ∧
      rest = between ++ '$' :: after := by
  rcases List.append_eq_append_iff.mp heq with ⟨inside, hwritten, hinside⟩ | hbehind
  · cases inside with
    | nil =>
        rw [List.append_nil] at hwritten
        exact ⟨[], by rw [hwritten, List.append_nil], hinside.symm⟩
    | cons c inside =>
        obtain ⟨rfl, _⟩ := List.cons.inj hinside
        obtain ⟨first, more, rfl⟩ := List.exists_cons_of_ne_nil hbefore
        have hdollar := dollar_not_mem_tail_written bracket hname
        rw [hwritten] at hdollar
        simp at hdollar
  · exact hbehind

end Fragment

theorem Text.accepts_of_mem_referencedNames {t name : Text} (hmem : name ∈ t.referencedNames) :
    VariableName.accepts name = true := by
  obtain ⟨fragment, hfragment, hname⟩ := List.mem_filterMap.mp hmem
  clear hmem
  fun_induction Text.fragments t with
  | case1 => contradiction
  | case2 c t first rest hread ih =>
      rcases List.mem_cons.mp hfragment with rfl | htail
      · obtain ⟨bracket, found, rfl, hfound⟩ := Fragment.exists_of_leadingReference? hread
        obtain rfl := Option.some.inj hname
        exact hfound
      · exact ih htail
  | case3 c t hread ih =>
      rcases List.mem_cons.mp hfragment with rfl | htail
      · contradiction
      · exact ih htail

/-! ## References among characters -/

namespace Reference

theorem ofFragments_reference (offset : Nat) (bracket : Bracket) (name : Text)
    (fragments : List Fragment) :
    ofFragments offset (.reference bracket name :: fragments) =
      ⟨name, offset, offset + (Fragment.reference bracket name).written.utf8Size⟩ ::
        ofFragments (offset + (Fragment.reference bracket name).written.utf8Size) fragments :=
  rfl

theorem ofFragments_character (offset : Nat) (c : Char) (fragments : List Fragment) :
    ofFragments offset (.character c :: fragments) =
      ofFragments (offset + Text.utf8Size [c]) fragments :=
  rfl

/-- The reference is written behind `before`, which starts at `offset`. -/
structure CutFrom (offset : Nat) (t : Text) (reference : Reference) (bracket : Bracket)
    (before after : Text) : Prop where
  name : VariableName.accepts reference.name = true
  text_eq : t = before ++ ((Fragment.reference bracket reference.name).written ++ after)
  start : reference.start = offset + before.utf8Size
  stop : reference.stop =
    reference.start + (Fragment.reference bracket reference.name).written.utf8Size

variable {offset : Nat} {t before after : Text} {reference : Reference} {bracket : Bracket}

theorem CutFrom.append_left (front : Text)
    (hcut : CutFrom (offset + front.utf8Size) t reference bracket before after) :
    CutFrom offset (front ++ t) reference bracket (front ++ before) after where
  name := hcut.name
  text_eq := by rw [hcut.text_eq, List.append_assoc]
  start := by rw [hcut.start, Text.utf8Size_append, Nat.add_assoc]
  stop := hcut.stop

theorem CutFrom.of_append_left (front : Text)
    (hcut : CutFrom offset (front ++ t) reference bracket (front ++ before) after) :
    CutFrom (offset + front.utf8Size) t reference bracket before after where
  name := hcut.name
  text_eq := by
    have htext := hcut.text_eq
    rw [List.append_assoc] at htext
    exact List.append_cancel_left htext
  start := by rw [hcut.start, Text.utf8Size_append, Nat.add_assoc]
  stop := hcut.stop

theorem exists_cutFrom_of_mem_ofFragments (hmem : reference ∈ ofFragments offset t.fragments) :
    ∃ bracket before after, CutFrom offset t reference bracket before after := by
  fun_induction Text.fragments t generalizing offset with
  | case1 => contradiction
  | case2 c t fragment rest hread ih =>
      obtain ⟨bracket, name, rfl, hname⟩ := Fragment.exists_of_leadingReference? hread
      have htext := Fragment.written_append_of_leadingReference? hread
      rw [ofFragments_reference] at hmem
      rcases List.mem_cons.mp hmem with rfl | htail
      · exact ⟨bracket, [], rest, hname, htext, rfl, rfl⟩
      · obtain ⟨bracket', before, after, hcut⟩ := ih htail
        rw [htext]
        exact ⟨bracket', _, after, hcut.append_left _⟩
  | case3 c t hread ih =>
      rw [ofFragments_character] at hmem
      obtain ⟨bracket, before, after, hcut⟩ := ih hmem
      exact ⟨bracket, [c] ++ before, after, hcut.append_left [c]⟩

theorem CutFrom.mem_ofFragments (hcut : CutFrom offset t reference bracket before after) :
    reference ∈ ofFragments offset t.fragments := by
  fun_induction Text.fragments t generalizing offset before with
  | case1 =>
      have htext := hcut.text_eq
      simp [Fragment.written] at htext
  | case2 c t fragment rest hread ih =>
      obtain ⟨bracket', name, rfl, hname⟩ := Fragment.exists_of_leadingReference? hread
      have htext := Fragment.written_append_of_leadingReference? hread
      rw [ofFragments_reference]
      by_cases hbefore : before = []
      · -- The reference starts the text, so it is the one that was read.
        subst hbefore
        have hleads := Fragment.leadingReference?_reference_append bracket after hcut.name
        rw [← List.nil_append (_ ++ after), ← hcut.text_eq, hread, Option.some.injEq,
          Prod.mk.injEq, Fragment.reference.injEq] at hleads
        obtain ⟨⟨rfl, hsame⟩, _⟩ := hleads
        have hstart : reference.start = offset := hcut.start
        have hstop := hcut.stop
        rw [hstart] at hstop
        rw [hsame, ← hstop, ← hstart]
        exact List.mem_cons_self
      · have hbegins : before ++ '$' :: (bracket.opening :: reference.name ++
            [bracket.closing] ++ after) = (Fragment.reference bracket' name).written ++ rest := by
          rw [← htext, hcut.text_eq]
          rfl
        obtain ⟨between, rfl, _⟩ :=
          Fragment.exists_eq_written_append hname hbefore hbegins
        rw [htext] at hcut
        exact List.mem_cons_of_mem _ (ih (hcut.of_append_left _))
  | case3 c t hread ih =>
      rw [ofFragments_character]
      cases before with
      | nil =>
          have hleads := Fragment.leadingReference?_reference_append bracket after hcut.name
          rw [← List.nil_append (_ ++ after), ← hcut.text_eq, hread] at hleads
          contradiction
      | cons first before =>
          obtain ⟨rfl, _⟩ := List.cons.inj hcut.text_eq
          exact ih (hcut.of_append_left [c])

theorem mem_ofFragments_iff :
    reference ∈ ofFragments offset t.fragments ↔
      ∃ bracket before after, CutFrom offset t reference bracket before after := by
  constructor
  · exact exists_cutFrom_of_mem_ofFragments
  · rintro ⟨bracket, before, after, hcut⟩
    exact hcut.mem_ofFragments

theorem utf8Size_written_pos (bracket : Bracket) (name : Text) :
    0 < (Fragment.reference bracket name).written.utf8Size := by
  have hdollar : 0 < '$'.utf8Size := by decide
  exact Nat.lt_of_lt_of_le hdollar (Nat.le_add_right _ _)

theorem le_start_of_mem_ofFragments {fragments : List Fragment}
    (hmem : reference ∈ ofFragments offset fragments) : offset ≤ reference.start := by
  induction fragments generalizing offset with
  | nil => contradiction
  | cons fragment fragments ih =>
      cases fragment with
      | character c => exact Nat.le_of_add_right_le (ih hmem)
      | reference bracket name =>
          rcases List.mem_cons.mp hmem with rfl | htail
          · exact Nat.le_refl offset
          · exact Nat.le_of_add_right_le (ih htail)

/-- The next reference begins where the last one ends or later. -/
theorem pairwise_ofFragments (offset : Nat) (fragments : List Fragment) :
    (ofFragments offset fragments).Pairwise fun first second =>
      first.start < second.start ∧ first.stop ≤ second.start := by
  induction fragments generalizing offset with
  | nil => exact .nil
  | cons fragment fragments ih =>
      cases fragment with
      | character c => exact ih _
      | reference bracket name =>
          rw [ofFragments_reference]
          refine .cons ?_ (ih _)
          intro reference hmem
          have hpos := utf8Size_written_pos bracket name
          have hle := le_start_of_mem_ofFragments hmem
          simp only
          omega

end Reference

/-! ## References among bytes -/

namespace Text

theorem size_utf8Encode (t : Text) : t.utf8Encode.size = t.utf8Size := by
  induction t with
  | nil => rfl
  | cons c t ih =>
      rw [List.utf8Encode_cons, ByteArray.size_append, ih, List.utf8Encode_singleton]
      simp [utf8Size]

/-- A byte is on the boundary of a character where the text can be cut. -/
theorem isValid_iff_exists_append {t : Text} {i : Nat} :
    String.Pos.Raw.IsValid (String.ofList t) ⟨i⟩ ↔
      ∃ before after, t = before ++ after ∧ i = before.utf8Size := by
  have hsize : ∀ s : Text, (String.ofList s).utf8ByteSize = s.utf8Size := by
    intro s
    rw [← String.size_toByteArray, String.toByteArray_ofList, size_utf8Encode]
  rw [String.Pos.Raw.isValid_ofList]
  constructor
  · rintro ⟨n, hi⟩
    rw [hsize] at hi
    exact ⟨t.take n, t.drop n, (List.take_append_drop n t).symm, hi⟩
  · rintro ⟨before, after, rfl, hi⟩
    refine ⟨before.length, ?_⟩
    rw [hsize, List.take_left]
    exact hi

theorem extract_append_utf8Encode (before rest : Text) (size : Nat) :
    (before ++ rest).utf8Encode.extract before.utf8Size (before.utf8Size + size) =
      rest.utf8Encode.extract 0 size := by
  rw [List.utf8Encode_append, ← size_utf8Encode]
  exact ByteArray.extract_append_size_add (i := 0)

theorem extract_utf8Encode_append (before part after : Text) :
    (before ++ (part ++ after)).utf8Encode.extract before.utf8Size
      (before.utf8Size + part.utf8Size) = part.utf8Encode := by
  rw [extract_append_utf8Encode, List.utf8Encode_append]
  exact ByteArray.extract_append_eq_left (size_utf8Encode part).symm

/-- Bytes of a text that encode a text themselves are those of a part of it. -/
theorem exists_append_of_extract_utf8Encode {t part : Text} {start stop : Nat}
    (hne : part ≠ []) (hstop : stop ≤ t.utf8Encode.size)
    (hextract : t.utf8Encode.extract start stop = part.utf8Encode) :
    ∃ before after, t = before ++ (part ++ after) ∧ start = before.utf8Size ∧
      stop = start + part.utf8Size := by
  have hpos : 0 < part.utf8Size := by
    rw [← size_utf8Encode, Nat.pos_iff_ne_zero, Ne, ByteArray.size_eq_zero_iff,
      List.utf8Encode_eq_empty]
    exact hne
  have hsize := congrArg ByteArray.size hextract
  rw [ByteArray.size_extract, Nat.min_eq_left hstop, size_utf8Encode] at hsize
  obtain rfl : stop = start + part.utf8Size := by omega
  have hvalid :
      ((String.ofList t).toByteArray.extract start (start + part.utf8Size)).IsValidUTF8 := by
    rw [String.toByteArray_ofList, hextract]
    exact ByteArray.isValidUTF8_utf8Encode
  have hend : start + part.utf8Size ≤ (String.ofList t).utf8ByteSize := by
    rw [← String.size_toByteArray, String.toByteArray_ofList]
    exact hstop
  have hends := (String.Pos.Raw.isValidUTF8_extract_iff ⟨start⟩ ⟨start + part.utf8Size⟩
    (Nat.le_add_right _ _) hend).mp hvalid
  have hne_stop : (⟨start⟩ : String.Pos.Raw) ≠ ⟨start + part.utf8Size⟩ := by
    intro heq
    have hbytes := congrArg String.Pos.Raw.byteIdx heq
    simp only at hbytes
    omega
  obtain ⟨before, rest, rfl, rfl⟩ :=
    isValid_iff_exists_append.mp (hends.resolve_left hne_stop).1
  rw [extract_append_utf8Encode] at hextract
  rw [List.utf8Encode_append, ByteArray.size_append, size_utf8Encode, size_utf8Encode] at hstop
  -- The bytes of the part are the first ones behind those of `before`.
  have hrest : part.utf8Encode ++ rest.utf8Encode.extract part.utf8Size rest.utf8Encode.size =
      rest.utf8Encode := by
    rw [← hextract, ← ByteArray.extract_eq_extract_append_extract _ (Nat.zero_le _),
      ByteArray.extract_zero_size]
    rw [size_utf8Encode]
    omega
  obtain ⟨after, rfl⟩ := List.isPrefix_of_utf8Encode_append_eq_utf8Encode _ hrest
  exact ⟨before, after, rfl, rfl, rfl⟩

end Text

namespace Reference

/-- The bytes from `start` up to `stop` are those of a written reference. -/
structure WrittenIn (t : Text) (reference : Reference) : Prop where
  name : VariableName.accepts reference.name = true
  stop_le : reference.stop ≤ t.utf8Encode.size
  bytes : ∃ bracket, t.utf8Encode.extract reference.start reference.stop =
    (Fragment.reference bracket reference.name).written.utf8Encode

theorem writtenIn_iff {t : Text} {reference : Reference} :
    reference.WrittenIn t ↔
      ∃ bracket before after, CutFrom 0 t reference bracket before after := by
  constructor
  · rintro ⟨hname, hstop, bracket, hbytes⟩
    obtain ⟨before, after, htext, hstart, hstop⟩ :=
      Text.exists_append_of_extract_utf8Encode (Fragment.written_ne_nil _) hstop hbytes
    exact ⟨bracket, before, after, hname, htext, by rw [hstart, Nat.zero_add], hstop⟩
  · rintro ⟨bracket, before, after, hcut⟩
    have hstart := hcut.start
    have hstop := hcut.stop
    rw [Nat.zero_add] at hstart
    refine ⟨hcut.name, ?_, bracket, ?_⟩
    · rw [hcut.text_eq, Text.size_utf8Encode, Text.utf8Size_append, Text.utf8Size_append, hstop,
        hstart]
      omega
    · rw [hstop, hstart, hcut.text_eq]
      exact Text.extract_utf8Encode_append before _ after

end Reference

/-- The references of a text are what is written as one, in the order of their places. -/
theorem Text.references_exactly (t : Text) :
    (∀ reference, reference ∈ t.references ↔ reference.WrittenIn t) ∧
      t.references.Pairwise (fun first second =>
        first.start < second.start ∧ first.stop ≤ second.start) ∧
      ∀ reference ∈ t.references,
        String.Pos.Raw.IsValid (String.ofList t) ⟨reference.start⟩ ∧
          String.Pos.Raw.IsValid (String.ofList t) ⟨reference.stop⟩ := by
  refine ⟨?_, Reference.pairwise_ofFragments 0 t.fragments, ?_⟩
  · intro reference
    rw [Reference.writtenIn_iff]
    exact Reference.mem_ofFragments_iff
  · intro reference hmem
    obtain ⟨bracket, before, after, hcut⟩ := Reference.mem_ofFragments_iff.mp hmem
    have hstart := hcut.start
    have hstop := hcut.stop
    rw [Nat.zero_add] at hstart
    constructor
    · exact Text.isValid_iff_exists_append.mpr ⟨before, _, hcut.text_eq, hstart⟩
    · refine Text.isValid_iff_exists_append.mpr
        ⟨before ++ (Fragment.reference bracket reference.name).written, after, ?_, ?_⟩
      · rw [hcut.text_eq, List.append_assoc]
      · rw [hstop, hstart, Text.utf8Size_append]

end MakeOutline
