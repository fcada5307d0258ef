import MakeOutline.Fragment
import MakeOutline.Text.Utf8

/-!
# Where a text refers to variables

The references of a text in the order in which they occur, each with its place in the UTF-8 bytes
of the text.
-/

namespace MakeOutline

/-- A reference to `name` that takes the bytes from `start` up to, but without, `stop`. -/
structure Reference where
  name : Text
  start : Nat
  stop : Nat
  deriving DecidableEq, Repr

namespace Reference

/-- The references among fragments that are written one after the other from `offset` on. -/
def ofFragments (offset : Nat) : List Fragment → List Reference
  | [] => []
  | fragment :: fragments =>
    let next := offset + fragment.written.utf8Size
    match fragment.referencedName? with
    | some name => ⟨name, offset, next⟩ :: ofFragments next fragments
    | none => ofFragments next fragments

end Reference

def Text.references (t : Text) : List Reference := Reference.ofFragments 0 t.fragments

/-- The names that a text refers to, in the order of the references, repetitions included. -/
def Text.referencedNames (t : Text) : List Text := t.fragments.filterMap Fragment.referencedName?

end MakeOutline
