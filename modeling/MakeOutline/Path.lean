import MakeOutline.Text.Basic

/-!
# Paths

Paths are texts whose components stand between slashes.  Empty components and the component `.`
leave the place as it is.
-/

namespace MakeOutline.Path

def components (path : Text) : List Text := path.splitOn '/'

/-- A second path that starts with a slash stands for itself. -/
def join (path more : Text) : Text :=
  if more.head? = some '/' then more
  else if path.isEmpty || path.getLast? = some '/' then path ++ more
  else path ++ '/' :: more

/-- The name of what the path leads to, unless its last step is to a parent. -/
def fileName? (path : Text) : Option Text :=
  match ((components path).filter fun c => c != [] && c != ['.']).getLast? with
  | none => none
  | some name => if name = ['.', '.'] then none else some name

end MakeOutline.Path
