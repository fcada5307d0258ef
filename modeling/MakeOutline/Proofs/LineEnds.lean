import MakeOutline.Makefile.Journal

/-!
# Texts, lines and bytes

A makefile can be given as lines, as a text or as bytes.  How the lines of a text end,
and how many byte order marks stand in front of them, makes no difference, and neither
does reading the text from its bytes.  Bytes that encode no text are the only ones that
are not read.
-/

namespace MakeOutline

inductive LineEnd where
  | newline
  | returnAndNewline

def LineEnd.text : LineEnd → Text
  | .newline => ['\n']
  | .returnAndNewline => ['\r', '\n']

/-- The text consists of the lines, and each of them has a line end.  Only a last line
that is not empty can do without. -/
inductive Terminated : List Text → Text → Prop
  | nil : Terminated [] []
  | unended {line : Text} (hne : line ≠ []) : Terminated [line] line
  | cons {lines : List Text} {t : Text} (line : Text) (lineEnd : LineEnd)
      (hrest : Terminated lines t) : Terminated (line :: lines) (line ++ lineEnd.text ++ t)

/-- No line end is taken for a part of the line, or a part of the line for one. -/
def IsSingleLine (line : Text) : Prop := '\n' ∉ line ∧ line.getLast? ≠ some '\r'

namespace Text

theorem lines_append_newline {piece : Text} (t : Text) (hpiece : '\n' ∉ piece) :
    lines (piece ++ '\n' :: t) =
      (if piece.getLast? = some '\r' then piece.dropLast else piece) :: lines t := by
  have hpieces : (piece ++ '\n' :: t).splitOn '\n' = piece :: t.splitOn '\n' :=
    List.splitOn_append_cons_self_of_not_mem hpiece t
  obtain ⟨next, others, hcons⟩ :=
    List.exists_cons_of_ne_nil (List.splitOn_ne_nil '\n' t)
  rw [lines, lines, hpieces, hcons, linesOfPieces]
  simp

theorem lines_append_lineEnd {line : Text} (lineEnd : LineEnd) (t : Text)
    (hline : IsSingleLine line) : lines (line ++ lineEnd.text ++ t) = line :: lines t := by
  cases lineEnd with
  | newline =>
      have htext : line ++ LineEnd.newline.text ++ t = line ++ '\n' :: t := by
        simp [LineEnd.text]
      rw [htext, lines_append_newline t hline.1, if_neg hline.2]
  | returnAndNewline =>
      have htext : line ++ LineEnd.returnAndNewline.text ++ t =
          (line ++ ['\r']) ++ '\n' :: t := by
        simp [LineEnd.text]
      have hpiece : '\n' ∉ line ++ ['\r'] := by
        simp [hline.1]
      have hlast : (line ++ ['\r']).getLast? = some '\r' := List.getLast?_concat
      rw [htext, lines_append_newline t hpiece, if_pos hlast, List.dropLast_concat]

theorem lines_of_not_mem {line : Text} (hne : line ≠ []) (hline : '\n' ∉ line) :
    lines line = [line] := by
  have hpieces : line.splitOn '\n' = [line] := List.splitOn_eq_singleton hline
  rw [lines, hpieces, linesOfPieces, if_neg]
  simpa using hne

theorem lines_of_terminated {lines : List Text} {t : Text} (hterminated : Terminated lines t)
    (hlines : ∀ line ∈ lines, IsSingleLine line) : t.lines = lines := by
  induction hterminated with
  | nil => rfl
  | unended hne => exact lines_of_not_mem hne (hlines _ List.mem_cons_self).1
  | @cons lines t line lineEnd hrest ih =>
      have hrest : t.lines = lines :=
        ih fun other hother => hlines other (List.mem_cons_of_mem _ hother)
      rw [lines_append_lineEnd lineEnd t (hlines line List.mem_cons_self), hrest]

/-- A text begins as its first line does, unless this one is empty. -/
theorem head?_of_terminated {lines : List Text} {t : Text} {c : Char}
    (hterminated : Terminated lines t) (hfirst : ∀ line, lines.head? = some line →
      line.head? ≠ some c) (hnewline : c ≠ '\n') (hreturn : c ≠ '\r') : t.head? ≠ some c := by
  cases hterminated with
  | nil => simp
  | unended hne => exact hfirst _ rfl
  | cons line lineEnd hrest =>
      cases line with
      | nil =>
          cases lineEnd with
          | newline => simpa [LineEnd.text] using hnewline.symm
          | returnAndNewline => simpa [LineEnd.text] using hreturn.symm
      | cons first rest => simpa using hfirst (first :: rest) rfl

/-! ## Bytes -/

theorem ofUtf8?_utf8Encode (t : Text) : ofUtf8? t.utf8Encode = some t := by
  have hvalid : ByteArray.IsValidUTF8 t.utf8Encode := .intro t rfl
  rw [ofUtf8?, String.fromUTF8?, dif_pos hvalid, Option.map_some]
  have hbytes : (String.ofList t).toByteArray = t.utf8Encode := String.toByteArray_ofList
  have hstring : String.fromUTF8 t.utf8Encode hvalid = String.ofList t :=
    String.toByteArray_inj.mp hbytes.symm
  rw [hstring, String.toList_ofList]

theorem ofUtf8?_eq_some_iff {bytes : ByteArray} {t : Text} :
    ofUtf8? bytes = some t ↔ t.utf8Encode = bytes := by
  constructor
  · intro hread
    obtain ⟨string, hstring, rfl⟩ := Option.map_eq_some_iff.mp hread
    unfold String.fromUTF8? at hstring
    split at hstring
    · obtain rfl := Option.some.inj hstring
      exact String.utf8Encode_toList
    · simp at hstring
  · rintro rfl
    exact ofUtf8?_utf8Encode t

theorem ofUtf8?_eq_none_iff {bytes : ByteArray} :
    ofUtf8? bytes = none ↔ ∀ t : Text, t.utf8Encode ≠ bytes := by
  constructor
  · rintro hnone t rfl
    rw [ofUtf8?_utf8Encode] at hnone
    simp at hnone
  · intro hno
    cases hread : ofUtf8? bytes with
    | none => rfl
    | some t => exact absurd (ofUtf8?_eq_some_iff.mp hread) (hno t)

end Text

namespace Makefile

/-- The text holds the lines behind any number of byte order marks. -/
structure Holds (t : Text) (lines : List Text) : Prop where
  single : ∀ line ∈ lines, IsSingleLine line
  unmarked : ∀ line, lines.head? = some line → line.head? ≠ some byteOrderMark
  written : ∃ marks body, t = List.replicate marks byteOrderMark ++ body ∧
    Terminated lines body

theorem Holds.linesOfText_eq {t : Text} {lines : List Text} (hholds : Holds t lines) :
    linesOfText t = lines := by
  obtain ⟨marks, body, rfl, hterminated⟩ := hholds.written
  have hmarks : ∀ c ∈ List.replicate marks byteOrderMark, (c == byteOrderMark) = true := by
    intro c hc
    simp [List.eq_of_mem_replicate hc]
  have hhead : body.head? ≠ some byteOrderMark :=
    Text.head?_of_terminated hterminated hholds.unmarked (by decide) (by decide)
  have hbody : body.dropWhile (· == byteOrderMark) = body := by
    cases body with
    | nil => rfl
    | cons c body =>
        apply List.dropWhile_cons_of_neg
        simpa using hhead
  rw [linesOfText, List.dropWhile_append_of_pos hmarks, hbody,
    Text.lines_of_terminated hterminated hholds.single]

/-- The bytes are not read if and only if they encode no text.  The failure then names
their source, and the journal tells of no completed reading. -/
structure ReadsOnlyText (source : Text) (bytes : ByteArray) : Prop where
  fails_iff : (∃ failure, ofBytes source bytes = .error failure) ↔
    ∀ t : Text, t.utf8Encode ≠ bytes
  failure : ∀ failure, ofBytes source bytes = .error failure →
    failure = .read source .notUtf8
  uncompleted : ∀ failure, ofBytes source bytes = .error failure →
    ∀ name targets values,
      .completedRead name targets values ∉ ofBytesJournal source bytes

theorem ofBytes_eq_error_iff {source : Text} {bytes : ByteArray} {failure : Failure} :
    ofBytes source bytes = .error failure ↔
      Text.ofUtf8? bytes = none ∧ failure = .read source .notUtf8 := by
  cases hread : Text.ofUtf8? bytes with
  | none => simp [ofBytes, hread, eq_comm]
  | some t => simp [ofBytes, hread]

theorem readsOnlyText (source : Text) (bytes : ByteArray) : ReadsOnlyText source bytes where
  fails_iff := by
    rw [← Text.ofUtf8?_eq_none_iff]
    constructor
    · rintro ⟨failure, hfails⟩
      exact (ofBytes_eq_error_iff.mp hfails).1
    · intro hnone
      exact ⟨_, ofBytes_eq_error_iff.mpr ⟨hnone, rfl⟩⟩
  failure := fun failure hfails => (ofBytes_eq_error_iff.mp hfails).2
  uncompleted := by
    intro failure hfails name targets values
    have hnone := (ofBytes_eq_error_iff.mp hfails).1
    have hjournal : ofBytesJournal source bytes = [.beginningRead source] := by
      rw [ofBytesJournal, hnone]
    simp [hjournal]

theorem frontEnds_agree (source : Text) :
    (∀ t lines, Holds t lines →
      ofText t = ofLines lines ∧ ofBytes source t.utf8Encode = .ok (ofLines lines)) ∧
    ∀ bytes, ReadsOnlyText source bytes := by
  refine ⟨?_, readsOnlyText source⟩
  intro t lines hholds
  have htext : ofText t = ofLines lines := by
    rw [ofText, hholds.linesOfText_eq]
  have hbytes : ofBytes source t.utf8Encode = .ok (ofText t) := by
    rw [ofBytes, Text.ofUtf8?_utf8Encode]
  rw [htext] at hbytes
  exact ⟨htext, hbytes⟩

/-- A continued header whose lines end differently, behind two byte order marks. -/
theorem frontEnds_agree_mixed_ends :
    ofText "\uFEFF\uFEFFall: main \\\r\n  util\n\r\n\tcc".toList =
        ofLines ["all: main \\".toList, "  util".toList, [], "\tcc".toList] ∧
      ∃ failure, ofBytes "Makefile".toList ⟨#[0x61, 0xff]⟩ = .error failure := by
  have hboth := frontEnds_agree "Makefile".toList
  constructor
  · refine (hboth.1 _ _ ⟨?_, ?_, 2, "all: main \\\r\n  util\n\r\n\tcc".toList, ?_, ?_⟩).1
    · simp [IsSingleLine]
    · simp [byteOrderMark]
    · decide
    · exact .cons "all: main \\".toList .returnAndNewline
        (.cons "  util".toList .newline (.cons [] .returnAndNewline (.unended (by decide))))
  · refine (hboth.2 _).fails_iff.mpr ?_
    intro t hbytes
    have hnone : Text.ofUtf8? ⟨#[0x61, 0xff]⟩ = none := by decide +kernel
    rw [← hbytes, Text.ofUtf8?_utf8Encode] at hnone
    simp at hnone

end Makefile

end MakeOutline
