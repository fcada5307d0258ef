import Mathlib.Data.List.TakeWhile
import MakeOutline.Item
import MakeOutline.Proofs.LineShape

/-!
# Groups and their merged texts

Lines are complete when nothing goes on after them, and chained when each of them
but the last goes on in the next.  A group is the longest chain at the front of
the lines, so complete lines keep their groups whatever follows.  The merged text
keeps every character but backslashes and is never continued itself.
-/

namespace MakeOutline

namespace Text

theorem mem_dropTrailing_of_mem {c : Char} {p : Char → Bool} {t : Text}
    (hmem : c ∈ t) (hc : p c = false) : c ∈ t.dropTrailing p := by
  unfold dropTrailing
  rw [List.mem_reverse]
  exact mem_dropWhile_of_mem (List.mem_reverse.mpr hmem) hc

theorem dropTrailing_isPrefix (p : Char → Bool) (t : Text) : t.dropTrailing p <+: t := by
  unfold dropTrailing
  rw [← List.reverse_suffix, List.reverse_reverse]
  exact List.dropWhile_suffix p

theorem mem_of_mem_trim {c : Char} {t : Text} (hmem : c ∈ t.trim) : c ∈ t :=
  t.trimStart_suffix.subset ((dropTrailing_isPrefix isBlank t.trimStart).subset hmem)

theorem dropTrailing_append_cons {c : Char} {p : Char → Bool} (s t : Text)
    (hc : p c = false) :
    dropTrailing p (s ++ c :: t) = s ++ c :: dropTrailing p t := by
  unfold dropTrailing
  have hreverse : (s ++ c :: t).reverse = t.reverse ++ c :: s.reverse := by simp
  rw [hreverse, List.dropWhile_append]
  split
  next hnone =>
    rw [List.isEmpty_iff] at hnone
    simp [hnone, hc]
  next => simp

theorem dropTrailing_cons {c : Char} {p : Char → Bool} (t : Text) (hc : p c = false) :
    dropTrailing p (c :: t) = c :: dropTrailing p t :=
  dropTrailing_append_cons [] t hc

theorem getLast?_dropTrailing {c : Char} {p : Char → Bool} {t : Text}
    (hlast : (t.dropTrailing p).getLast? = some c) : p c = false := by
  unfold dropTrailing at hlast
  rw [List.getLast?_reverse] at hlast
  have hhead := List.head?_dropWhile_not p t.reverse
  rw [hlast] at hhead
  simpa using hhead

end Text

namespace Continuation

/-- The last line, if there is one, does not go on. -/
def Complete (lines : List Text) : Prop :=
  ∀ line, lines.getLast? = some line → isContinued line = false

/-- Every line but the last goes on in the next one. -/
def Chained (lines : List Text) : Prop :=
  ∀ line ∈ lines.dropLast, isContinued line = true

instance (lines : List Text) : Decidable (Complete lines) :=
  inferInstanceAs (Decidable (∀ line ∈ lines.getLast?, isContinued line = false))

instance (lines : List Text) : Decidable (Chained lines) :=
  inferInstanceAs (Decidable (∀ line ∈ lines.dropLast, isContinued line = true))

theorem complete_singleton {line : Text} (hends : isContinued line = false) :
    Complete [line] := by
  intro last hlast
  simp only [List.getLast?_singleton, Option.some.injEq] at hlast
  rw [← hlast]
  exact hends

theorem Complete.of_append {first second : List Text}
    (hcomplete : Complete (first ++ second)) : Complete second := by
  intro line hlast
  apply hcomplete line
  rw [List.getLast?_append, hlast]
  rfl

theorem Complete.of_cons {line : Text} {lines : List Text}
    (hcomplete : Complete (line :: lines)) : Complete lines := by
  rw [← List.singleton_append] at hcomplete
  exact hcomplete.of_append

theorem chained_singleton (line : Text) : Chained [line] := by
  intro other hother
  simp at hother

theorem Chained.of_cons {line : Text} {lines : List Text}
    (hchained : Chained (line :: lines)) : Chained lines := by
  intro other hother
  cases lines with
  | nil => simp at hother
  | cons next rest =>
      apply hchained other
      rw [List.dropLast_cons_cons]
      exact List.mem_cons_of_mem line hother

theorem Chained.head_continued {line next : Text} {rest : List Text}
    (hchained : Chained (line :: next :: rest)) : isContinued line = true := by
  apply hchained line
  rw [List.dropLast_cons_cons]
  exact List.mem_cons_self

/-! ## Where groups end -/

theorem split_of_continued {line : Text} (lines : List Text)
    (hcontinued : isContinued line = true) :
    split (line :: lines) = (line :: (split lines).1, (split lines).2) := by
  simp [split, hcontinued]

theorem split_of_ends {line : Text} (lines : List Text)
    (hends : isContinued line = false) : split (line :: lines) = ([line], lines) := by
  simp [split, hends]

theorem exists_split_cons (line : Text) (lines : List Text) :
    ∃ more, (split (line :: lines)).1 = line :: more := by
  cases hline : isContinued line with
  | true => exact ⟨_, congrArg Prod.fst (split_of_continued lines hline)⟩
  | false => exact ⟨_, congrArg Prod.fst (split_of_ends lines hline)⟩

theorem split_cons_ne_nil (line : Text) (lines : List Text) : (split (line :: lines)).1 ≠ [] := by
  obtain ⟨more, hgroup⟩ := exists_split_cons line lines
  rw [hgroup]
  exact List.cons_ne_nil line more

/-- A chain that is complete, or below which there is nothing, is a group. -/
theorem split_of_chained {group : List Text} (lines : List Text) (hne : group ≠ [])
    (hchained : Chained group) (hends : Complete group ∨ lines = []) :
    split (group ++ lines) = (group, lines) := by
  induction group with
  | nil => contradiction
  | cons line more ih =>
      cases more with
      | nil =>
          cases hline : isContinued line with
          | false => exact split_of_ends lines hline
          | true =>
              rcases hends with hcomplete | rfl
              · have hfalse := hcomplete line rfl
                rw [hline] at hfalse
                contradiction
              · simp [split, hline]
      | cons next rest =>
          have htail := ih (by simp) hchained.of_cons (hends.imp_left Complete.of_cons)
          rw [List.cons_append, split_of_continued _ hchained.head_continued, htail]

theorem chained_split (lines : List Text) : Chained (split lines).1 := by
  induction lines with
  | nil =>
      intro line hline
      simp [split] at hline
  | cons line lines ih =>
      cases hline : isContinued line with
      | false =>
          rw [split_of_ends lines hline]
          exact chained_singleton line
      | true =>
          rw [split_of_continued lines hline]
          intro other hother
          cases hgroup : (split lines).1 with
          | nil => simp [hgroup] at hother
          | cons next rest =>
              rw [hgroup] at hother ih
              rw [List.dropLast_cons_cons, List.mem_cons] at hother
              rcases hother with rfl | hmem
              · exact hline
              · exact ih other hmem

theorem complete_split_or_eq_nil (lines : List Text) :
    Complete (split lines).1 ∨ (split lines).2 = [] := by
  induction lines with
  | nil => exact .inr rfl
  | cons line lines ih =>
      cases hline : isContinued line with
      | false =>
          rw [split_of_ends lines hline]
          exact .inl (complete_singleton hline)
      | true =>
          rw [split_of_continued lines hline]
          cases lines with
          | nil => exact .inr rfl
          | cons next rest =>
              refine ih.imp_left ?_
              intro hcomplete last hlast
              apply hcomplete last
              obtain ⟨others, hgroup⟩ := exists_split_cons next rest
              simpa [hgroup] using hlast

theorem split_append_of_complete {line : Text} {lines : List Text} (more : List Text)
    (hcomplete : Complete (line :: lines)) :
    split (line :: (lines ++ more)) =
      ((split (line :: lines)).1, (split (line :: lines)).2 ++ more) := by
  induction lines generalizing line with
  | nil =>
      have hline := hcomplete line rfl
      rw [split_of_ends _ hline, split_of_ends _ hline]
  | cons next rest ih =>
      cases hline : isContinued line with
      | false => rw [split_of_ends _ hline, split_of_ends _ hline]
      | true =>
          rw [split_of_continued _ hline, split_of_continued _ hline, List.cons_append,
            ih hcomplete.of_cons]

theorem complete_split_snd {lines : List Text} (hcomplete : Complete lines) :
    Complete (split lines).2 := by
  rw [← split_append lines] at hcomplete
  exact hcomplete.of_append

/-! ## Merged texts -/

theorem merge_singleton (line : Text) :
    merge [line] = line.dropTrailing (· == '\\') := by
  simp [merge, Text.joinedBy]

theorem merge_cons_cons (line next : Text) (rest : List Text) :
    merge (line :: next :: rest) =
      line.dropTrailing (· == '\\') ++ ' ' :: merge (next :: rest) := by
  simp [merge, Text.joinedBy]

theorem exists_merge_cons (line : Text) (more : List Text) :
    ∃ t, merge (line :: more) = line.dropTrailing (· == '\\') ++ t := by
  cases more with
  | nil => exact ⟨[], by rw [merge_singleton, List.append_nil]⟩
  | cons next rest => exact ⟨_, merge_cons_cons line next rest⟩

theorem mem_merge_of_mem {c : Char} {line : Text} {group : List Text}
    (hline : line ∈ group) (hmem : c ∈ line) (hc : c ≠ '\\') : c ∈ merge group := by
  have hkept : c ∈ line.dropTrailing (· == '\\') :=
    Text.mem_dropTrailing_of_mem hmem (by simpa using hc)
  induction group with
  | nil => simp at hline
  | cons first more ih =>
      rcases List.mem_cons.mp hline with rfl | htail
      · obtain ⟨t, hmerge⟩ := exists_merge_cons line more
        rw [hmerge]
        exact List.mem_append_left t hkept
      · cases more with
        | nil => simp at htail
        | cons next rest =>
            rw [merge_cons_cons]
            exact List.mem_append_right _ (List.mem_cons_of_mem _ (ih htail))

theorem isContinued_merge (group : List Text) : isContinued (merge group) = false := by
  have hlast : ∀ c, (merge group).getLast? = some c → c ≠ '\\' := by
    induction group with
    | nil => simp [merge, Text.joinedBy]
    | cons line more ih =>
        intro c hc
        cases more with
        | nil =>
            rw [merge_singleton] at hc
            simpa using Text.getLast?_dropTrailing hc
        | cons next rest =>
            rw [merge_cons_cons, List.getLast?_append, List.getLast?_cons] at hc
            cases hrest : (merge (next :: rest)).getLast? with
            | none =>
                simp only [hrest, Option.getD_none, Option.some_or, Option.some.injEq] at hc
                rw [← hc]
                decide
            | some last =>
                simp only [hrest, Option.getD_some, Option.some_or, Option.some.injEq] at hc
                rw [← hc]
                exact ih last hrest
  cases hmerge : (merge group).getLast? with
  | none => simp [isContinued, hmerge]
  | some c => simpa [isContinued, hmerge] using hlast c hmerge

theorem equals_not_mem_of_header_merge {group : List Text} {header : Header}
    (hread : Header.ofLine? (merge group) = some header) :
    ∀ line ∈ group, '=' ∉ line := by
  intro line hline hmem
  exact Header.equals_not_mem_of_ofLine? hread (mem_merge_of_mem hline hmem (by decide))

end Continuation

end MakeOutline
