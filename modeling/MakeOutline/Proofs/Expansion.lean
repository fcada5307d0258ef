import Mathlib.Data.List.Sort
import MakeOutline.Proofs.Noninterference
import MakeOutline.Proofs.ReferencePlaces

/-!
# Expanding a text

A text is cut at its references in one way.  Expanding it puts the value of each
reference in the place of it, all at once, and leaves the text between them as it is.
The same comes of going from reference to reference and copying, at each that has a
value, what has not been copied yet.  The bytes to be copied are always in order, within
the text and not within a character.
-/

namespace MakeOutline

theorem Text.append_inj_of_utf8Size {s s' t t' : Text} (heq : s ++ t = s' ++ t')
    (hsize : s.utf8Size = s'.utf8Size) : s = s' ∧ t = t' := by
  induction s generalizing s' with
  | nil =>
      cases s' with
      | nil => exact ⟨rfl, heq⟩
      | cons c s' =>
          have hpos := c.utf8Size_pos
          simp only [utf8Size] at hsize
          omega
  | cons c s ih =>
      cases s' with
      | nil =>
          have hpos := c.utf8Size_pos
          simp only [utf8Size] at hsize
          omega
      | cons c' s' =>
          obtain ⟨rfl, hrest⟩ := List.cons.inj heq
          obtain ⟨rfl, rfl⟩ := ih hrest (Nat.add_left_cancel hsize)
          exact ⟨rfl, rfl⟩

theorem Variables.expandFragment_reference (table : Variables) (bracket : Bracket)
    (name : Text) :
    table.expandFragment (.reference bracket name) =
      (table.get? name).getD (Fragment.reference bracket name).written :=
  rfl

/-! ## Texts cut at their references -/

/-- A reference and the text between it and the one before. -/
structure Piece where
  front : Text
  bracket : Bracket
  name : Text
  deriving DecidableEq, Repr

/-- References with the text around them. -/
structure Cut where
  pieces : List Piece
  rest : Text
  deriving DecidableEq, Repr

def Piece.reference (piece : Piece) : Text :=
  (Fragment.reference piece.bracket piece.name).written

/-- Where the references of the pieces stand, when the first piece starts at `offset`. -/
def Piece.places (offset : Nat) : List Piece → List Reference
  | [] => []
  | piece :: pieces =>
    let start := offset + piece.front.utf8Size
    let stop := start + piece.reference.utf8Size
    ⟨piece.name, start, stop⟩ :: places stop pieces

namespace Cut

/-- The cut with something in the place of each reference. -/
def filled (fill : Bracket → Text → Text) (cut : Cut) : Text :=
  (cut.pieces.flatMap fun piece => piece.front ++ fill piece.bracket piece.name) ++ cut.rest

def text (cut : Cut) : Text :=
  cut.filled fun bracket name => (Fragment.reference bracket name).written

/-- The text with values in the place of references, where there are values. -/
def substituted (table : Variables) (cut : Cut) : Text :=
  cut.filled fun bracket name =>
    (table.get? name).getD (Fragment.reference bracket name).written

/-- The text is cut at all that is written as a reference in it, and nowhere else. -/
structure CutsAtReferences (t : Text) (cut : Cut) : Prop where
  text_eq : cut.text = t
  places : ∀ reference, reference ∈ Piece.places 0 cut.pieces ↔ reference.WrittenIn t

/-- The cut at the references among fragments, with some text in front of them. -/
def ofFragments (front : Text) : List Fragment → Cut
  | [] => ⟨[], front⟩
  | .character c :: fragments => ofFragments (front ++ [c]) fragments
  | .reference bracket name :: fragments =>
    let behind := ofFragments [] fragments
    ⟨⟨front, bracket, name⟩ :: behind.pieces, behind.rest⟩

theorem filled_cons (fill : Bracket → Text → Text) (piece : Piece) (pieces : List Piece)
    (rest : Text) :
    filled fill ⟨piece :: pieces, rest⟩ =
      piece.front ++ (fill piece.bracket piece.name ++ filled fill ⟨pieces, rest⟩) := by
  simp [filled]

theorem filled_ofFragments (write : Fragment → Text)
    (hcharacter : ∀ c, write (.character c) = [c]) (front : Text) (fragments : List Fragment) :
    (ofFragments front fragments).filled (fun bracket name => write (.reference bracket name)) =
      front ++ fragments.flatMap write := by
  fun_induction ofFragments front fragments with
  | case1 front => simp [filled]
  | case2 front c fragments ih =>
      rw [ih, List.flatMap_cons, hcharacter, List.append_assoc]
  | case3 front bracket name fragments behind ih =>
      rw [filled_cons, ih, List.flatMap_cons, List.nil_append]

theorem places_ofFragments (offset : Nat) (front : Text) (fragments : List Fragment) :
    Piece.places offset (ofFragments front fragments).pieces =
      Reference.ofFragments (offset + front.utf8Size) fragments := by
  fun_induction ofFragments front fragments generalizing offset with
  | case1 front => rfl
  | case2 front c fragments ih =>
      rw [ih, Reference.ofFragments_character, Text.utf8Size_append, Nat.add_assoc]
  | case3 front bracket name fragments behind ih =>
      rw [Reference.ofFragments_reference, Piece.places, ih]
      rfl

theorem cutsAtReferences_ofFragments (t : Text) :
    CutsAtReferences t (ofFragments [] t.fragments) := by
  constructor
  · exact (filled_ofFragments _ (fun _ => rfl) [] t.fragments).trans
      t.flatMap_written_fragments
  · intro reference
    rw [places_ofFragments, Reference.writtenIn_iff]
    exact Reference.mem_ofFragments_iff

theorem expand_eq_substituted (table : Variables) (t : Text) :
    table.expand t = (ofFragments [] t.fragments).substituted table :=
  (filled_ofFragments table.expandFragment (fun _ => rfl) [] t.fragments).symm

/-! ## There is no other cut -/

theorem le_start_of_mem_places {offset : Nat} {pieces : List Piece} {reference : Reference}
    (hmem : reference ∈ Piece.places offset pieces) : offset ≤ reference.start := by
  induction pieces generalizing offset with
  | nil => contradiction
  | cons piece pieces ih =>
      rcases List.mem_cons.mp hmem with rfl | htail
      · exact Nat.le_add_right _ _
      · exact Nat.le_of_add_right_le (Nat.le_of_add_right_le (ih htail))

theorem pairwise_places (offset : Nat) (pieces : List Piece) :
    (Piece.places offset pieces).Pairwise (·.start < ·.start) := by
  induction pieces generalizing offset with
  | nil => exact .nil
  | cons piece pieces ih =>
      refine .cons ?_ (ih _)
      intro reference hmem
      have hpos := Reference.utf8Size_written_pos piece.bracket piece.name
      have hle := le_start_of_mem_places hmem
      rw [Piece.reference] at hle
      simp only
      omega

theorem eq_of_text_eq {offset : Nat} {pieces pieces' : List Piece} {rest rest' : Text}
    (htext : text ⟨pieces, rest⟩ = text ⟨pieces', rest'⟩)
    (hplaces : Piece.places offset pieces = Piece.places offset pieces') :
    pieces = pieces' ∧ rest = rest' := by
  induction pieces generalizing offset pieces' with
  | nil =>
      cases pieces' with
      | nil => exact ⟨rfl, htext⟩
      | cons piece' pieces' => contradiction
  | cons piece pieces ih =>
      cases pieces' with
      | nil => contradiction
      | cons piece' pieces' =>
          obtain ⟨front, bracket, name⟩ := piece
          obtain ⟨front', bracket', name'⟩ := piece'
          rw [text, filled_cons, text, filled_cons] at htext
          obtain ⟨hfirst, hbehind⟩ := List.cons.inj hplaces
          obtain ⟨rfl, hstart, hstop⟩ := Reference.mk.inj hfirst
          -- What stands in front is as long, and so is the reference itself.
          obtain ⟨rfl, hfrom⟩ :=
            Text.append_inj_of_utf8Size htext (Nat.add_left_cancel hstart)
          obtain ⟨hreference, hrest⟩ :=
            Text.append_inj_of_utf8Size hfrom (Nat.add_left_cancel hstop)
          obtain rfl : bracket = bracket' := by
            cases bracket <;> cases bracket' <;>
              simp [Fragment.written, Bracket.opening] at hreference <;> rfl
          obtain ⟨rfl, rfl⟩ := ih hrest hbehind
          exact ⟨rfl, rfl⟩

theorem CutsAtReferences.unique {t : Text} {cut other : Cut} (hcut : CutsAtReferences t cut)
    (hother : CutsAtReferences t other) : other = cut := by
  have hirrefl : Std.Irrefl fun first second : Reference => first.start < second.start :=
    ⟨fun reference => Nat.lt_irrefl reference.start⟩
  have hantisymm : Std.Antisymm fun first second : Reference => first.start < second.start :=
    ⟨fun _ _ hlt hgt => absurd hgt (Nat.lt_asymm hlt)⟩
  have hplaces : Piece.places 0 other.pieces = Piece.places 0 cut.pieces := by
    apply (pairwise_places 0 other.pieces).eq_of_mem_iff (pairwise_places 0 cut.pieces)
    intro reference
    rw [hother.places, hcut.places]
  obtain ⟨hpieces, hrest⟩ := eq_of_text_eq (hother.text_eq.trans hcut.text_eq.symm) hplaces
  rw [Cut.mk.injEq]
  exact ⟨hpieces, hrest⟩

end Cut

/-! ## Copying from reference to reference -/

namespace Text

/-- The bytes that encode the text. -/
def bytes (t : Text) : ByteArray := (String.ofList t).toByteArray

theorem bytes_eq (t : Text) : t.bytes = t.utf8Encode := String.toByteArray_ofList

theorem bytes_append (s t : Text) : bytes (s ++ t) = s.bytes ++ t.bytes := by
  rw [bytes_eq, List.utf8Encode_append, ← bytes_eq, ← bytes_eq]

theorem size_bytes (t : Text) : t.bytes.size = t.utf8Size := by
  rw [bytes_eq, size_utf8Encode]

/-- The bytes from `start` up to `stop`, if these are in order and between characters. -/
def slice? (t : Text) (start stop : Nat) : Option ByteArray :=
  if start ≤ stop ∧ String.Pos.Raw.IsValid (String.ofList t) ⟨start⟩ ∧
      String.Pos.Raw.IsValid (String.ofList t) ⟨stop⟩ then
    some (t.bytes.extract start stop)
  else none

theorem slice?_append (before part after : Text) :
    slice? (before ++ (part ++ after)) before.utf8Size (before ++ part).utf8Size =
      some part.bytes := by
  have hstart : String.Pos.Raw.IsValid (String.ofList (before ++ (part ++ after)))
      ⟨before.utf8Size⟩ :=
    isValid_iff_exists_append.mpr ⟨before, part ++ after, rfl, rfl⟩
  have hstop : String.Pos.Raw.IsValid (String.ofList (before ++ (part ++ after)))
      ⟨(before ++ part).utf8Size⟩ :=
    isValid_iff_exists_append.mpr ⟨before ++ part, after, (List.append_assoc _ _ _).symm, rfl⟩
  have hle : before.utf8Size ≤ (before ++ part).utf8Size := by
    rw [utf8Size_append]
    exact Nat.le_add_right _ _
  rw [slice?, if_pos ⟨hle, hstart, hstop⟩, bytes_eq, utf8Size_append,
    extract_utf8Encode_append, bytes_eq]

end Text

/-- What is written so far, and up to which byte of the text that is. -/
structure Splice where
  written : ByteArray
  copiedUpTo : Nat

namespace Splice

def start : Splice := ⟨.empty, 0⟩

/-- Copies the text in front of a reference that has a value and writes the value. -/
def step? (table : Variables) (t : Text) (splice : Splice) (reference : Reference) :
    Option Splice :=
  match table.get? reference.name with
  | some value =>
    (t.slice? splice.copiedUpTo reference.start).map fun between =>
      ⟨splice.written ++ between ++ value.bytes, reference.stop⟩
  | none => some splice

/-- Copies the text behind the last reference that has a value. -/
def finish? (t : Text) (splice : Splice) : Option ByteArray :=
  (t.slice? splice.copiedUpTo t.bytes.size).map (splice.written ++ ·)

end Splice

/-- The expansion of a text written by copying.  There is none if a slice is asked for that
the text does not have. -/
def Variables.splice? (table : Variables) (t : Text) : Option ByteArray :=
  (t.references.foldlM (Splice.step? table t) Splice.start).bind (Splice.finish? t)

namespace Splice

variable {table : Variables} {t : Text}

theorem step?_of_none {reference : Reference} (splice : Splice)
    (hvalue : table.get? reference.name = none) :
    splice.step? table t reference = some splice := by
  rw [step?, hvalue]

theorem step?_of_some {reference : Reference} {splice : Splice} {value between : Text}
    (hvalue : table.get? reference.name = some value)
    (hslice : t.slice? splice.copiedUpTo reference.start = some between.bytes) :
    splice.step? table t reference =
      some ⟨splice.written ++ (between ++ value).bytes, reference.stop⟩ := by
  rw [step?, hvalue]
  simp only [hslice, Option.map_some, ByteArray.append_assoc, Text.bytes_append]

/-- With `pending` read and not yet copied, the text is copied to its end as it expands. -/
theorem foldlM_step?_ofFragments (table : Variables) (fragments : List Fragment) :
    ∀ (copied pending : Text) (written : ByteArray),
      t = copied ++ (pending ++ fragments.flatMap Fragment.written) →
      ((Reference.ofFragments (copied ++ pending).utf8Size fragments).foldlM (step? table t)
          ⟨written, copied.utf8Size⟩).bind (finish? t) =
        some (written ++ (pending ++ fragments.flatMap table.expandFragment).bytes) := by
  induction fragments with
  | nil =>
      intro copied pending written htext
      rw [List.flatMap_nil] at htext
      have hslice : t.slice? copied.utf8Size t.bytes.size = some pending.bytes := by
        rw [Text.size_bytes, htext, List.append_nil]
        have h := Text.slice?_append copied pending []
        rw [List.append_nil] at h
        exact h
      rw [List.flatMap_nil, List.append_nil]
      simp [Reference.ofFragments, finish?, hslice]
  | cons fragment fragments ih =>
      intro copied pending written htext
      rw [List.flatMap_cons] at htext
      cases fragment with
      | character c =>
          rw [Reference.ofFragments_character, ← Text.utf8Size_append, List.append_assoc, ih]
          · rw [List.flatMap_cons, List.append_assoc]
            rfl
          · rw [htext, List.append_assoc]
            rfl
      | reference bracket name =>
          rw [Reference.ofFragments_reference, List.foldlM_cons, ← Text.utf8Size_append,
            List.flatMap_cons]
          cases hvalue : table.get? name with
          | none =>
              rw [step?_of_none _ hvalue, Variables.expandFragment_reference, hvalue,
                Option.getD_none, ← List.append_assoc]
              have hrun := ih copied (pending ++ (Fragment.reference bracket name).written)
                written (by rw [htext, List.append_assoc])
              rw [← List.append_assoc] at hrun
              exact hrun
          | some value =>
              have hslice : t.slice? copied.utf8Size (copied ++ pending).utf8Size =
                  some pending.bytes := by
                rw [htext]
                exact Text.slice?_append _ _ _
              have hrun := ih (copied ++ pending ++ (Fragment.reference bracket name).written) []
                (written ++ (pending ++ value).bytes) (by simp [htext])
              rw [List.append_nil, List.nil_append] at hrun
              rw [step?_of_some hvalue hslice, Variables.expandFragment_reference, hvalue,
                Option.getD_some, ← List.append_assoc, Text.bytes_append (pending ++ value),
                ← ByteArray.append_assoc]
              exact hrun

theorem splice?_eq (table : Variables) (t : Text) :
    table.splice? t = some (table.expand t).bytes := by
  have hrun := foldlM_step?_ofFragments table t.fragments [] [] .empty
    t.flatMap_written_fragments.symm
  rw [ByteArray.empty_append] at hrun
  exact hrun

/-! ## How far the text is copied -/

theorem copiedUpTo_of_step? {splice next : Splice} {reference : Reference}
    (hstep : splice.step? table t reference = some next) :
    next.copiedUpTo = splice.copiedUpTo ∨ next.copiedUpTo = reference.stop := by
  unfold step? at hstep
  split at hstep
  next value hvalue =>
    obtain ⟨between, _, rfl⟩ := Option.map_eq_some_iff.mp hstep
    exact .inr rfl
  next =>
    obtain rfl := Option.some.inj hstep
    exact .inl rfl

theorem copiedUpTo_of_foldlM {references : List Reference} {splice next : Splice}
    (hrun : references.foldlM (step? table t) splice = some next) :
    next.copiedUpTo = splice.copiedUpTo ∨
      ∃ reference ∈ references, next.copiedUpTo = reference.stop := by
  induction references generalizing splice with
  | nil =>
      obtain rfl := Option.some.inj hrun
      exact .inl rfl
  | cons reference references ih =>
      rw [List.foldlM_cons] at hrun
      obtain ⟨between, hstep, hrest⟩ := Option.bind_eq_some_iff.mp hrun
      rcases ih hrest with hsame | ⟨later, hmem, hlater⟩
      · rw [hsame]
        refine (copiedUpTo_of_step? hstep).imp_right ?_
        exact fun hstop => ⟨reference, List.mem_cons_self, hstop⟩
      · exact .inr ⟨later, List.mem_cons_of_mem reference hmem, hlater⟩

/-- Whatever references are still to come, the text is copied at most up to the next one. -/
theorem exists_of_references_eq (table : Variables) {done rest : List Reference}
    {reference : Reference} (hcut : t.references = done ++ reference :: rest) :
    ∃ splice, done.foldlM (step? table t) start = some splice ∧
      splice.copiedUpTo ≤ reference.start := by
  have hwhole := splice?_eq table t
  rw [Variables.splice?, hcut, List.foldlM_append] at hwhole
  obtain ⟨last, hlast, _⟩ := Option.bind_eq_some_iff.mp hwhole
  obtain ⟨splice, hdone, _⟩ := Option.bind_eq_some_iff.mp hlast
  refine ⟨splice, hdone, ?_⟩
  have hordered := Reference.pairwise_ofFragments 0 t.fragments
  rw [← Text.references, hcut, List.pairwise_append] at hordered
  rcases copiedUpTo_of_foldlM hdone with hstart | ⟨earlier, hmem, hstop⟩
  · rw [hstart]
    exact Nat.zero_le _
  · rw [hstop]
    exact (hordered.2.2 earlier hmem reference List.mem_cons_self).2

end Splice

/-! ## What expanding a text does -/

theorem Text.map_name_references (t : Text) :
    t.references.map Reference.name = t.referencedNames := by
  have hnames : ∀ (fragments : List Fragment) (offset : Nat),
      (Reference.ofFragments offset fragments).map Reference.name =
        fragments.filterMap Fragment.referencedName? := by
    intro fragments
    induction fragments with
    | nil => exact fun _ => rfl
    | cons fragment fragments ih =>
        intro offset
        cases fragment with
        | character c => exact ih _
        | reference bracket name => exact congrArg (name :: ·) (ih _)
  exact hnames t.fragments 0

theorem Text.bounds_of_mem_references {t : Text} {reference : Reference}
    (hmem : reference ∈ t.references) :
    reference.start ≤ reference.stop ∧ reference.stop ≤ t.bytes.size := by
  obtain ⟨bracket, before, after, hcut⟩ := Reference.mem_ofFragments_iff.mp hmem
  have hsize := congrArg Text.utf8Size hcut.text_eq
  rw [utf8Size_append, utf8Size_append] at hsize
  rw [size_bytes, hsize, hcut.stop, hcut.start]
  omega

theorem Variables.expand_eq_self {table : Variables} {t : Text}
    (hunknown : ∀ name ∈ t.referencedNames, table.get? name = none) : table.expand t = t := by
  have hwritten : ∀ fragment ∈ t.fragments,
      table.expandFragment fragment = fragment.written := by
    intro fragment hfragment
    cases fragment with
    | character c => rfl
    | reference bracket name =>
        have hvalue := hunknown name (List.mem_filterMap.mpr ⟨_, hfragment, rfl⟩)
        rw [expandFragment_reference, hvalue, Option.getD_none]
  rw [expand, List.flatMap_congr hwritten, t.flatMap_written_fragments]

/-- How a table acts on a text. -/
structure Variables.Substitutes (table : Variables) (t : Text) : Prop where
  simultaneous : ∃ cut, Cut.CutsAtReferences t cut ∧
    (∀ other, Cut.CutsAtReferences t other → other = cut) ∧
    table.expand t = cut.substituted table
  spliced : table.splice? t = some (table.expand t).bytes
  in_order : ∀ done reference rest, t.references = done ++ reference :: rest →
    ∃ splice, done.foldlM (Splice.step? table t) Splice.start = some splice ∧
      splice.copiedUpTo ≤ reference.start ∧ reference.start ≤ reference.stop ∧
      reference.stop ≤ t.bytes.size
  agreeing : ∀ other : Variables,
    (∀ reference ∈ t.references, table.get? reference.name = other.get? reference.name) →
      table.expand t = other.expand t
  unknown : (∀ reference ∈ t.references, table.get? reference.name = none) → table.expand t = t

theorem Variables.substitutes (table : Variables) (t : Text) : table.Substitutes t := by
  have hnames : ∀ {P : Text → Prop}, (∀ reference ∈ t.references, P reference.name) →
      ∀ name ∈ t.referencedNames, P name := by
    intro P hall name hname
    rw [← t.map_name_references] at hname
    obtain ⟨reference, hmem, rfl⟩ := List.mem_map.mp hname
    exact hall reference hmem
  constructor
  · exact ⟨_, Cut.cutsAtReferences_ofFragments t,
      fun _ => (Cut.cutsAtReferences_ofFragments t).unique, Cut.expand_eq_substituted table t⟩
  · exact Splice.splice?_eq table t
  · intro done reference rest hcut
    obtain ⟨splice, hdone, hcopied⟩ := Splice.exists_of_references_eq table hcut
    have hmem : reference ∈ t.references := by
      rw [hcut]
      exact List.mem_append_right done List.mem_cons_self
    exact ⟨splice, hdone, hcopied, Text.bounds_of_mem_references hmem⟩
  · exact fun other hagree => expand_congr (hnames hagree)
  · exact fun hunknown => expand_eq_self (hnames hunknown)

end MakeOutline
