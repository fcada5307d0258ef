import MakeOutline.Makefile.Basic
import MakeOutline.Proofs.Numbering

/-!
# Headers over several lines

A group whose merged text is a header may be replaced by that text.  Its first
line is of no kind that a single line can be of, so it starts a group with a rule
open above it or not, and none of its lines assigns anything.  Reading the group
and reading the merged text leave the same state behind.  Only the numbers of the
lines below differ.
-/

namespace MakeOutline

namespace Continuation

/-- The text of the group at the front of the lines. -/
def collapsed (lines : List Text) : Text := merge (split lines).1

theorem collapsed_eq_merge {group : List Text} (hne : group ≠ [])
    (hchained : Chained group) : collapsed group = merge group := by
  have hsplit := split_of_chained [] hne hchained (.inr rfl)
  rw [List.append_nil] at hsplit
  rw [collapsed, hsplit]

theorem merge_of_ends {line : Text} (hends : isContinued line = false) :
    merge [line] = line := by
  rw [merge_singleton]
  cases line using List.reverseRecOn with
  | nil => rfl
  | append_singleton start last =>
      have hlast : (last == '\\') = false := by
        simpa [isContinued, List.getLast?_append] using hends
      exact Text.dropTrailing_append_cons start [] hlast

/-! ## The first line of the group -/

theorem trimStart_merge_cons {line t : Text} {c : Char} (more : List Text)
    (htrim : line.trimStart = c :: t) (hc : c ≠ '\\') :
    ∃ t', (merge (line :: more)).trimStart = c :: t' := by
  have hline : line = line.takeWhile isBlank ++ c :: t := by
    rw [← htrim]
    exact List.takeWhile_append_dropWhile.symm
  have hkept : line.dropTrailing (· == '\\') =
      line.takeWhile isBlank ++ c :: Text.dropTrailing (· == '\\') t := by
    conv_lhs => rw [hline]
    exact Text.dropTrailing_append_cons _ t (by simpa using hc)
  have hblank : isBlank c = false := by
    have hhead := List.head?_dropWhile_not isBlank line
    rw [← Text.trimStart, htrim] at hhead
    simpa using hhead
  obtain ⟨s, hmerge⟩ := exists_merge_cons line more
  refine ⟨Text.dropTrailing (· == '\\') t ++ s, ?_⟩
  rw [hmerge, hkept, List.append_assoc, Text.trimStart,
    List.dropWhile_append_of_pos (fun d hd => List.mem_takeWhile_imp hd), List.cons_append,
    List.dropWhile_cons_of_neg (by simp [hblank])]

theorem startsIndented_merge_cons {line : Text} (more : List Text)
    (hindented : startsIndented line = true) :
    startsIndented (merge (line :: more)) = true := by
  obtain ⟨s, hmerge⟩ := exists_merge_cons line more
  rw [hmerge]
  unfold startsIndented at hindented
  split at hindented
  next t =>
    rw [Text.dropTrailing_cons t (by decide)]
    rfl
  next t =>
    rw [Text.dropTrailing_cons _ (by decide), Text.dropTrailing_cons t (by decide)]
    rfl
  next => contradiction

/-- A continued line that begins a header is not understood by itself. -/
theorem ofText_eq_other {line : Text} {more : List Text} {header : Header}
    (hcontinued : isContinued line = true)
    (hread : Header.ofLine? (merge (line :: more)) = some header) :
    Line.ofText line = .other := by
  -- The backslash at the end keeps the line from being blank.
  have hmem : '\\' ∈ line := by
    apply List.mem_of_getLast?
    simpa [isContinued] using hcontinued
  have hblank : Line.isBlankOrComment line = false := by
    unfold Line.isBlankOrComment
    split
    next htrim =>
      have hkept : '\\' ∈ line.trimStart := Text.mem_dropWhile_of_mem hmem (by decide)
      rw [htrim] at hkept
      contradiction
    next c t htrim =>
      by_contra hhash
      have hc : c = '#' := by simpa using hhash
      obtain ⟨t', hmerged⟩ := trimStart_merge_cons more htrim (by rw [hc]; decide)
      obtain ⟨first, _, hfirst, hname⟩ := Header.exists_nameChar_of_ofLine? hread
      rw [hmerged, List.cons.injEq] at hfirst
      rw [← hfirst.1, hc] at hname
      exact absurd hname (by decide)
  have hassign : Assignment.ofLine? line = none := by
    cases hfound : Assignment.ofLine? line with
    | none => rfl
    | some a =>
        have hequals := Assignment.equals_mem_of_ofLine? hfound
        exact absurd hequals (equals_not_mem_of_header_merge hread line List.mem_cons_self)
  have hindented : startsIndented line = false := by
    by_contra hstarts
    have hmerged := startsIndented_merge_cons more (by simpa using hstarts)
    rw [(Header.exists_rest_of_ofLine? hread).1] at hmerged
    contradiction
  simp [Line.ofText, hblank, hassign, hcontinued, hindented]

end Continuation

/-! ## One item -/

open Continuation

theorem Item.ofLines_header_group {group below : List Text} {header : Header}
    (ruleOpen : Bool) (number : Nat) (hne : group ≠ []) (hchained : Chained group)
    (hends : Complete group ∨ below = []) (hread : Header.ofLine? (merge group) = some header) :
    ofLines ruleOpen number (group ++ below) =
      ⟨number, group, .header header⟩ ::
        ofLines (!Target.isSpecial header.name) (number + group.length) below := by
  obtain ⟨line, more, rfl⟩ := List.exists_cons_of_ne_nil hne
  cases hline : isContinued line with
  | true =>
      have hother := ofText_eq_other hline hread
      have hmeaning : Meaning.ofGroup (line :: more) = .header header := by
        simp [Meaning.ofGroup, hread]
      have hstarts : startsGroup ruleOpen line = true := by
        simp [startsGroup, hline, hother]
      rw [ofLines_group_append ruleOpen number below hstarts hchained hends, hmeaning]
      rfl
  | false =>
      -- A line that is not continued is a group alone.
      cases more with
      | cons next rest =>
          rw [hchained.head_continued] at hline
          contradiction
      | nil =>
          rw [merge_of_ends hline] at hread
          have hmeaning : Meaning.ofLine line = .header header := by
            simp [Meaning.ofLine, Line.ofText_eq_header hread hline]
          have hstarts : startsGroup ruleOpen line = false := by
            simp [startsGroup, hline]
          rw [List.singleton_append, ofLines_of_not_startsGroup number below hstarts, hmeaning]
          rfl

namespace Extraction

theorem State.readLines_header_group {group below : List Text} {header : Header}
    (state : State) (number : Nat) (hne : group ≠ []) (hchained : Chained group)
    (hends : Complete group ∨ below = []) (hread : Header.ofLine? (merge group) = some header) :
    state.readLines number (group ++ below) =
      (state.startRule header number).readLines (number + group.length) below := by
  have hopen : (state.startRule header number).ruleOpen = !Target.isSpecial header.name := by
    exact state.ruleOpen_step ⟨number, group, .header header⟩
  unfold readLines
  rw [Item.ofLines_header_group _ number hne hchained hends hread, List.foldl_cons, hopen]
  rfl

theorem targetsOf_header_group {above group below : List Text} {header : Header}
    (habove : Complete above) (hne : group ≠ []) (hchained : Chained group)
    (hends : Complete group ∨ below = []) (hread : Header.ofLine? (merge group) = some header) :
    targetsOf (above ++ group ++ below) =
      (targetsOf (above ++ [merge group] ++ below)).map
        (Target.renumber (numberBelow (above.length + 1) (group.length - 1))) := by
  have hends' : isContinued (merge group) = false := isContinued_merge group
  have hread' : Header.ofLine? (merge [merge group]) = some header := by
    rw [merge_of_ends hends', hread]
  have hnumbered : State.NumberedUpTo (above.length + 1)
      ((State.initial.readLines 1 above).startRule header (1 + above.length)) := by
    have hline : (⟨1 + above.length, group, .header header⟩ : Item).line ≤
        above.length + 1 := by
      simp [Nat.add_comm]
    exact ((State.numberedUpTo_readLines above).mono (Nat.le_succ _)).step hline
  -- Both runs have the state after the header, and the lines below go on from it.
  have hlength : 1 + above.length + group.length =
      above.length + 1 + 1 + (group.length - 1) := by
    have hpos := List.length_pos_iff.mpr hne
    omega
  rw [targetsOf_eq_closedTargets, targetsOf_eq_closedTargets, List.append_assoc,
    List.append_assoc, State.readLines_append _ _ _ _ habove,
    State.readLines_append _ _ _ _ habove,
    State.readLines_header_group _ _ hne hchained hends hread,
    State.readLines_header_group _ _ (by simp) (chained_singleton _)
      (.inl (complete_singleton hends')) hread',
    hlength, State.readLines_shifted hnumbered, State.closedTargets_renumber]
  rw [List.length_singleton, Nat.add_comm 1 above.length]

theorem assignments_eq_nil {lines : List Text} (hequals : ∀ line ∈ lines, '=' ∉ line) :
    assignments lines = [] := by
  apply List.filterMap_eq_nil_iff.mpr
  intro line hline
  rw [Line.assignment?_eq_none_of_equals_not_mem (hequals line hline)]
  rfl

theorem tableOf_header_group {group : List Text} {header : Header} (above below : List Text)
    (hread : Header.ofLine? (merge group) = some header) :
    tableOf (above ++ group ++ below) = tableOf (above ++ [merge group] ++ below) := by
  have hgroup : assignments group = [] :=
    assignments_eq_nil (equals_not_mem_of_header_merge hread)
  have hmerged : assignments [merge group] = [] := by
    apply assignments_eq_nil
    intro line hline
    rw [List.mem_singleton.mp hline]
    exact Header.equals_not_mem_of_ofLine? hread
  unfold tableOf
  rw [assignments_append, assignments_append, assignments_append, assignments_append, hgroup,
    hmerged]

end Extraction

/-- A header over several lines may be written on one.  Only the numbers of the
rules below it get smaller, by the lines that are saved. -/
theorem Makefile.ofLines_collapsed (above group below : List Text) (header : Header)
    (habove : Complete above) (hne : group ≠ []) (hchained : Chained group)
    (hends : Complete group ∨ below = [])
    (hread : Header.ofLine? (collapsed group) = some header) :
    (ofLines (above ++ group ++ below)).table =
        (ofLines (above ++ [collapsed group] ++ below)).table ∧
      (ofLines (above ++ group ++ below)).targets =
        (ofLines (above ++ [collapsed group] ++ below)).targets.map
          (Target.renumber (numberBelow (above.length + 1) (group.length - 1))) := by
  rw [collapsed_eq_merge hne hchained] at hread ⊢
  constructor
  · exact Extraction.tableOf_header_group above below hread
  · exact Extraction.targetsOf_header_group habove hne hchained hends hread

/-- Nothing but a backslash stands on the first line. -/
theorem Makefile.ofLines_collapsed_backslash_first :
    collapsed ["\\".toList, "t \\".toList, ": d".toList] = " t  : d".toList ∧
      (ofLines ["A = 1".toList, "\\".toList, "t \\".toList, ": d".toList, "u:".toList]).table =
        (ofLines ["A = 1".toList, " t  : d".toList, "u:".toList]).table ∧
      (ofLines ["A = 1".toList, "\\".toList, "t \\".toList, ": d".toList, "u:".toList]).targets =
        (ofLines ["A = 1".toList, " t  : d".toList, "u:".toList]).targets.map
          (Target.renumber (numberBelow 2 2)) := by
  have hcollapsed : collapsed ["\\".toList, "t \\".toList, ": d".toList] = " t  : d".toList := by
    decide
  have hchained : Chained ["\\".toList, "t \\".toList, ": d".toList] := by decide
  have hcomplete : Complete ["\\".toList, "t \\".toList, ": d".toList] := by decide
  exact ⟨hcollapsed, Makefile.ofLines_collapsed ["A = 1".toList]
    ["\\".toList, "t \\".toList, ": d".toList] ["u:".toList] ⟨['t'], ['d']⟩
    (by decide) (by simp) hchained (.inl hcomplete) (by decide)⟩

end MakeOutline
