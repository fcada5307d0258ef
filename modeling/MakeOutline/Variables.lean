import MakeOutline.Fragment
import MakeOutline.Text.Quoted
import Std.Data.ExtTreeMap

/-!
# Variable tables

A table gives each assigned name its last value, as it was written.  Two tables are equal when they
give every name the same value, whatever the assignments that led to them.
-/

namespace MakeOutline

structure Variables where
  values : Std.ExtTreeMap Text Text
  deriving DecidableEq

namespace Variables

def empty : Variables := ⟨∅⟩

def assign (table : Variables) (name value : Text) : Variables :=
  ⟨table.values.insert name value⟩

/-- The table after the assignments, the first of them made first. -/
def ofList (assignments : List (Text × Text)) : Variables :=
  assignments.foldl (fun table (name, value) => table.assign name value) empty

def get? (table : Variables) (name : Text) : Option Text := table.values[name]?

def contains (table : Variables) (name : Text) : Bool := table.values.contains name

def size (table : Variables) : Nat := table.values.size

def isEmpty (table : Variables) : Bool := table.values.isEmpty

/-- Each name with its value, in the ascending order of the names. -/
def toList (table : Variables) : List (Text × Text) := table.values.toList

theorem get?_assign (table : Variables) (name value other : Text) :
    (table.assign name value).get? other =
      if name = other then some value else table.get? other := by
  simp [get?, assign, Std.ExtTreeMap.getElem?_insert]

theorem ext_get? {first second : Variables}
    (h : ∀ name, first.get? name = second.get? name) : first = second := by
  cases first
  cases second
  exact congrArg Variables.mk (Std.ExtTreeMap.ext_getElem? h)

/-- What a fragment stands for.  A reference to a name without a value stands for itself. -/
def expandFragment (table : Variables) (fragment : Fragment) : Text :=
  match fragment.referencedName? with
  | some name => (table.get? name).getD fragment.written
  | none => fragment.written

/-- Values are put in as they are: references inside them are not looked up. -/
def expand (table : Variables) (t : Text) : Text :=
  t.fragments.flatMap table.expandFragment

/-- The entries in braces, names and values quoted. -/
def rendered (table : Variables) : Text :=
  ['{'] ++ Text.joinedBy ", ".toList
    (table.toList.map fun (name, value) => name.quoted ++ ": ".toList ++ value.quoted) ++ ['}']

end Variables

end MakeOutline
