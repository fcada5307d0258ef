import MakeOutline.VariableName

/-!
# Text with variable references

A reference is `$(NAME)` or `${NAME}`.  A text is read from left to right as a list of fragments,
each a reference or a single character that starts none.  Where none starts, reading on by one
character comes to the same as passing over all in front of the next dollar.  Writing the fragments
one after the other gives the text back.
-/

namespace MakeOutline

/-- The pair of delimiters around the name in a reference. -/
inductive Bracket where
  | round
  | curly
  deriving DecidableEq, Repr

namespace Bracket

def opening : Bracket → Char
  | round => '('
  | curly => '{'

def closing : Bracket → Char
  | round => ')'
  | curly => '}'

end Bracket

inductive Fragment where
  | character (c : Char)
  | reference (bracket : Bracket) (name : Text)
  deriving DecidableEq, Repr

namespace Fragment

def written : Fragment → Text
  | character c => [c]
  | reference bracket name => '$' :: bracket.opening :: name ++ [bracket.closing]

def referencedName? : Fragment → Option Text
  | character _ => none
  | reference _ name => some name

/-- A name and its closing delimiter at the start of the text, and what follows them. -/
def closedName? (bracket : Bracket) (t : Text) : Option (Text × Text) :=
  match VariableName.split? t with
  | some (name, c :: rest) => if c = bracket.closing then some (name, rest) else none
  | _ => none

/-- The reference that starts the text, and what follows it. -/
def leadingReference? : Text → Option (Fragment × Text)
  | '$' :: '(' :: t => (closedName? .round t).map fun (name, rest) => (reference .round name, rest)
  | '$' :: '{' :: t => (closedName? .curly t).map fun (name, rest) => (reference .curly name, rest)
  | _ => none

theorem append_of_closedName? {bracket : Bracket} {t name rest : Text}
    (h : closedName? bracket t = some (name, rest)) : t = name ++ bracket.closing :: rest := by
  unfold closedName? at h
  split at h
  · next found c tail hsplit =>
    split at h
    · next hc =>
      obtain ⟨rfl, rfl⟩ : found = name ∧ tail = rest := by simpa using h
      cases t with
      | nil => simp [VariableName.split?] at hsplit
      | cons first more =>
        simp only [VariableName.split?, Option.ite_none_right_eq_some, Option.some.injEq,
          Prod.mk.injEq] at hsplit
        rw [← hsplit.2.1, ← hc, ← hsplit.2.2, List.cons_append, List.takeWhile_append_dropWhile]
    · simp at h
  · simp at h

theorem written_append_of_leadingReference? {t rest : Text} {fragment : Fragment}
    (h : leadingReference? t = some (fragment, rest)) : t = fragment.written ++ rest := by
  unfold leadingReference? at h
  split at h
  · obtain ⟨⟨name, tail⟩, hclosed, hpair⟩ := Option.map_eq_some_iff.1 h
    obtain ⟨rfl, rfl⟩ := Prod.mk.inj hpair
    rw [append_of_closedName? hclosed]
    simp [written, Bracket.opening]
  · obtain ⟨⟨name, tail⟩, hclosed, hpair⟩ := Option.map_eq_some_iff.1 h
    obtain ⟨rfl, rfl⟩ := Prod.mk.inj hpair
    rw [append_of_closedName? hclosed]
    simp [written, Bracket.opening]
  · simp at h

theorem leadingReference?_of_ne_dollar {c : Char} (t : Text) (hc : c ≠ '$') :
    leadingReference? (c :: t) = none := by
  unfold leadingReference?
  split
  · next heq => exact absurd (List.cons.inj heq).1 hc
  · next heq => exact absurd (List.cons.inj heq).1 hc
  · rfl

theorem written_ne_nil (fragment : Fragment) : fragment.written ≠ [] := by
  cases fragment <;> simp [written]

theorem length_of_leadingReference? {t rest : Text} {fragment : Fragment}
    (h : leadingReference? t = some (fragment, rest)) : rest.length < t.length := by
  have hlen := congrArg List.length (written_append_of_leadingReference? h)
  have hpos := List.length_pos_iff.2 fragment.written_ne_nil
  rw [List.length_append] at hlen
  omega

end Fragment

/-- The fragments of a text.  A reference is taken wherever one starts. -/
def Text.fragments : Text → List Fragment
  | [] => []
  | c :: t =>
    match _hread : Fragment.leadingReference? (c :: t) with
    | some (fragment, rest) => fragment :: Text.fragments rest
    | none => .character c :: Text.fragments t
termination_by t => t.length
decreasing_by
  · exact Fragment.length_of_leadingReference? ‹_›
  · simp

theorem Text.fragments_nil : fragments [] = [] := by
  rw [fragments]

theorem Text.fragments_of_some {t rest : Text} {fragment : Fragment}
    (hread : Fragment.leadingReference? t = some (fragment, rest)) :
    t.fragments = fragment :: rest.fragments := by
  cases t with
  | nil => contradiction
  | cons c t =>
    rw [fragments]
    split
    · next other behind hother =>
      rw [hread, Option.some.injEq, Prod.mk.injEq] at hother
      rw [hother.1, hother.2]
    · next hnone =>
      rw [hread] at hnone
      contradiction

theorem Text.fragments_of_none {t : Text} {c : Char}
    (hnone : Fragment.leadingReference? (c :: t) = none) :
    fragments (c :: t) = .character c :: t.fragments := by
  rw [fragments]
  split
  · next other behind hother =>
    rw [hnone] at hother
    contradiction
  · rfl

/-- No reference starts in front of the first dollar. -/
theorem Text.fragments_eq_append (t : Text) :
    t.fragments =
      (t.takeWhile (· != '$')).map .character ++ fragments (t.dropWhile (· != '$')) := by
  induction t with
  | nil => rfl
  | cons c t ih =>
    by_cases hc : c = '$'
    · simp [hc]
    · rw [fragments_of_none (Fragment.leadingReference?_of_ne_dollar t hc), ih]
      simp [hc]

/-- Where no reference starts, all in front of the next dollar may be passed over at once. -/
theorem Text.fragments_of_none_eq_append {t : Text} {c : Char}
    (hnone : Fragment.leadingReference? (c :: t) = none) :
    fragments (c :: t) =
      (c :: t.takeWhile (· != '$')).map .character ++ fragments (t.dropWhile (· != '$')) := by
  rw [fragments_of_none hnone, fragments_eq_append t]
  rfl

/-- Writing the fragments of a text gives the text back. -/
theorem Text.flatMap_written_fragments (t : Text) : t.fragments.flatMap Fragment.written = t := by
  fun_induction Text.fragments t with
  | case1 => rfl
  | case2 c t fragment rest hread ih =>
    rw [List.flatMap_cons, ih, ← Fragment.written_append_of_leadingReference? hread]
  | case3 c t hread ih =>
    rw [List.flatMap_cons, ih]
    rfl

end MakeOutline
