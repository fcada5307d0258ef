import MakeOutline.Proofs.ContinuedHeaders
import MakeOutline.Proofs.Recipes

/-!
# Inert lines

A blank line or a comment, or a line that nothing is known about and that does not go on,
leaves every state as it is, inside a rule or outside.  So it may be put in below complete
lines, and only the rules below it get larger numbers.  A comment is inert even if it ends
in a backslash.
-/

namespace MakeOutline

/-- The line says nothing and takes no other line with it. -/
def Line.Inert (line : Text) : Prop :=
  ofText line = .blank ∨ ofText line = .other ∧ isContinued line = false

namespace Line.Inert

variable {line : Text} (hinert : Inert line)
include hinert

theorem startsGroup_eq_false (ruleOpen : Bool) : Item.startsGroup ruleOpen line = false := by
  rcases hinert with hblank | ⟨_, hends⟩
  · simp [Item.startsGroup, hblank]
  · simp [Item.startsGroup, hends]

theorem meaning_eq : Meaning.ofLine line = .nothing := by
  rcases hinert with hblank | ⟨hother, _⟩
  · rw [Meaning.ofLine, hblank]
  · rw [Meaning.ofLine, hother]

theorem assignment?_eq_none : (ofText line).assignment? = none := by
  rcases hinert with hblank | ⟨hother, _⟩
  · rw [hblank]
    rfl
  · rw [hother]
    rfl

end Line.Inert

namespace Extraction

open Continuation

theorem State.readLines_inert_cons {line : Text} (hinert : Line.Inert line) (state : State)
    (number : Nat) (below : List Text) :
    state.readLines number (line :: below) = state.readLines (number + 1) below := by
  rw [state.readLines_cons number below (hinert.startsGroup_eq_false state.ruleOpen),
    state.step_of_nothing hinert.meaning_eq]

theorem targetsOf_insert_inert {above : List Text} {line : Text} (below : List Text)
    (habove : Complete above) (hinert : Line.Inert line) :
    targetsOf (above ++ [line] ++ below) =
      (targetsOf (above ++ below)).map (Target.renumber (numberBelow above.length 1)) := by
  have hnumbered := State.numberedUpTo_readLines above
  rw [targetsOf_eq_closedTargets, targetsOf_eq_closedTargets, List.append_assoc,
    List.singleton_append, State.readLines_append _ _ _ _ habove,
    State.readLines_append _ _ _ _ habove, State.readLines_inert_cons hinert,
    Nat.add_comm 1 above.length, State.readLines_shifted hnumbered,
    State.closedTargets_renumber]

theorem tableOf_insert_inert {line : Text} (above below : List Text)
    (hinert : Line.Inert line) :
    tableOf (above ++ [line] ++ below) = tableOf (above ++ below) := by
  have hline : assignments [line] = [] := by
    apply List.filterMap_eq_nil_iff.mpr
    intro other hother
    rw [List.mem_singleton.mp hother, hinert.assignment?_eq_none, Option.map_none]
  rw [tableOf, assignments_append, assignments_append, hline, List.append_nil, tableOf,
    assignments_append]

end Extraction

/-- An inert line may be put in anywhere but between a line and the one that it goes on in. -/
theorem Makefile.ofLines_insert_inert (above below : List Text) (line : Text)
    (habove : Continuation.Complete above) (hinert : Line.Inert line) :
    (ofLines (above ++ [line] ++ below)).table = (ofLines (above ++ below)).table ∧
      (ofLines (above ++ [line] ++ below)).targets =
        (ofLines (above ++ below)).targets.map
          (Target.renumber (numberBelow above.length 1)) := by
  constructor
  · exact Extraction.tableOf_insert_inert above below hinert
  · exact Extraction.targetsOf_insert_inert below habove hinert

/-- A comment that ends in a backslash stands in the recipe of a rule that is defined again. -/
theorem Makefile.ofLines_insert_comment :
    Line.Inert "\t# \\".toList ∧
      (ofLines ["a:".toList, "\t# \\".toList, "\tls".toList, "a: b".toList]).table =
        (ofLines ["a:".toList, "\tls".toList, "a: b".toList]).table ∧
      (ofLines ["a:".toList, "\t# \\".toList, "\tls".toList, "a: b".toList]).targets =
        (ofLines ["a:".toList, "\tls".toList, "a: b".toList]).targets.map
          (Target.renumber (numberBelow 1 1)) := by
  have hinert : Line.Inert "\t# \\".toList := .inl (by decide)
  exact ⟨hinert, Makefile.ofLines_insert_inert ["a:".toList] ["\tls".toList, "a: b".toList]
    "\t# \\".toList (by decide) hinert⟩

end MakeOutline
