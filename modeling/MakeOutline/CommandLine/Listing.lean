import MakeOutline.Makefile.Basic

/-!
# The listing of a makefile

Each target is a line with its name, followed by a line with its dependencies and a line with the
variables that it requires, where there are any.
-/

namespace MakeOutline.CommandLine

/-- A required variable with the makefile's own value for it, if there is one. -/
def requirement (table : Variables) (name : Text) : Text :=
  match table.get? name with
  | some value => name ++ " (default ".toList ++ value.quoted ++ [')']
  | none => name

def targetListing (table : Variables) (target : Target) : Text :=
  target.name ++ ['\n'] ++
    (if target.dependencies.isEmpty then []
     else "  depends on: ".toList ++ Text.joinedBy [' '] target.dependencies ++ ['\n']) ++
    if target.needsVariables then
      "  variables: ".toList ++
        Text.joinedBy ", ".toList (target.required.map (requirement table)) ++ ['\n']
    else []

def listing (makefile : Makefile) : Text :=
  makefile.targets.flatMap (targetListing makefile.table)

end MakeOutline.CommandLine
