import MakeOutline.Line

/-!
# Groups of continued lines

A group runs up to and including the first line that does not end in a backslash.  It is read as one
text: its lines without the backslashes at their ends, with a space between neighbours.
-/

namespace MakeOutline.Continuation

/-- The group that starts a list of lines, and the lines after it. -/
def split : List Text → List Text × List Text
  | [] => ([], [])
  | line :: lines =>
    if isContinued line then (line :: (split lines).1, (split lines).2) else ([line], lines)

def merge (group : List Text) : Text :=
  Text.joinedBy [' '] (group.map (Text.dropTrailing (· == '\\')))

theorem split_append (lines : List Text) : (split lines).1 ++ (split lines).2 = lines := by
  induction lines with
  | nil => rfl
  | cons line lines ih =>
    simp only [split]
    split
    · simpa using ih
    · rfl

theorem length_split_add (lines : List Text) :
    (split lines).1.length + (split lines).2.length = lines.length := by
  rw [← List.length_append, split_append]

theorem length_split_le (lines : List Text) : (split lines).2.length ≤ lines.length := by
  rw [← length_split_add lines]
  exact Nat.le_add_left _ _

theorem length_split_lt (line : Text) (lines : List Text) :
    (split (line :: lines)).2.length < (line :: lines).length := by
  simp only [split]
  split
  · simpa using Nat.lt_succ_of_le (length_split_le lines)
  · simp

end MakeOutline.Continuation
