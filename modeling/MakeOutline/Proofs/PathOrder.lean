import MakeOutline.Discovery
import MakeOutline.Proofs.ByteOrder

/-!
# Paths of the entries of a directory

The path of an entry goes where the path of the directory goes and then takes the name as its last
step.  So the paths of two entries of one directory are in order when their names are, and an
entry has the name of a makefile when its path leads to one.
-/

namespace MakeOutline.Path

/-! ## Names -/

/-- The name of an entry, unlike what stands between slashes without leading to an entry. -/
structure IsName (name : Text) : Prop where
  ne_nil : name ≠ []
  ne_current : name ≠ ['.']
  ne_parent : name ≠ ['.', '.']
  no_slash : '/' ∉ name

theorem IsName.head?_ne_slash {name : Text} (hname : IsName name) : name.head? ≠ some '/' :=
  fun hslash => hname.no_slash (List.mem_of_mem_head? hslash)

theorem IsName.join_eq {name : Text} (hname : IsName name) (directory : Text) :
    join directory name =
      if directory.isEmpty || directory.getLast? = some '/' then directory ++ name
      else directory ++ '/' :: name := by
  rw [join, if_neg hname.head?_ne_slash]

theorem components_append_slash (path more : Text) :
    components (path ++ '/' :: more) = components path ++ components more :=
  List.splitOn_append_cons_self path more

theorem IsName.components_eq {name : Text} (hname : IsName name) : components name = [name] :=
  List.splitOn_eq_singleton hname.no_slash

/-- The name comes last, in the place of the empty text behind a slash at the end. -/
theorem IsName.components_join {name : Text} (hname : IsName name) (directory : Text) :
    ∃ front, (components directory = front ∨ components directory = front ++ [[]]) ∧
      components (join directory name) = front ++ [name] := by
  rw [hname.join_eq]
  rcases List.eq_nil_or_concat directory with hnil | ⟨before, last, hdirectory⟩
  · subst hnil
    exact ⟨[], .inr rfl, hname.components_eq⟩
  · rw [List.concat_eq_append] at hdirectory
    subst hdirectory
    by_cases hslash : last = '/'
    · subst hslash
      refine ⟨components before, .inr ?_, ?_⟩
      · rw [components_append_slash]
        rfl
      · rw [if_pos (by simp), List.append_assoc, List.singleton_append, components_append_slash,
          hname.components_eq]
    · refine ⟨components (before ++ [last]), .inl rfl, ?_⟩
      rw [if_neg (by simp [hslash]), components_append_slash, hname.components_eq]

/-! ## Steps -/

/-- The components that lead elsewhere. -/
def steps (path : Text) : List Text := (components path).filter fun c => c != [] && c != ['.']

theorem IsName.steps_join {name : Text} (hname : IsName name) (directory : Text) :
    steps (join directory name) = steps directory ++ [name] := by
  rcases hname.components_join directory with ⟨front, hfront, hjoin⟩
  have hlast : [name].filter (fun c => c != [] && c != ['.']) = [name] := by
    simp [hname.ne_nil, hname.ne_current]
  rw [steps, steps, hjoin, List.filter_append, hlast]
  rcases hfront with hfront | hfront <;> simp [hfront]

theorem IsName.fileName?_join {name : Text} (hname : IsName name) (directory : Text) :
    fileName? (join directory name) = some name := by
  have hsteps := hname.steps_join directory
  unfold steps at hsteps
  rw [fileName?, hsteps, List.getLast?_concat]
  dsimp only
  rw [if_neg hname.ne_parent]

/-! ## The order of paths -/

/-- What paths are compared by.  Only at its start does a path name the root or the place it
starts from. -/
inductive Component where
  | root
  | current
  | parent
  | name (text : Text)

namespace Component

def rank : Component → Nat
  | root => 0
  | current => 1
  | parent => 2
  | name _ => 3

def order : Component → Component → Ordering
  | name first, name second => Text.compareBytes first second
  | c, d => compare c.rank d.rank

def ofStep (step : Text) : Component := if step = ['.', '.'] then parent else name step

theorem order_self (c : Component) : c.order c = .eq := by
  cases c with
  | name text => exact Std.ReflOrd.compare_self
  | root => rfl
  | current => rfl
  | parent => rfl

end Component

def start (path : Text) : List Component :=
  if path.head? = some '/' then [.root]
  else if (components path).head? = some ['.'] then [.current]
  else []

def parts (path : Text) : List Component := start path ++ (steps path).map Component.ofStep

/-- Paths are compared part by part, and names by their bytes. -/
def order (path other : Text) : Ordering := (parts path).compareLex Component.order (parts other)

theorem IsName.head?_join {name : Text} (hname : IsName name) {directory : Text}
    (hdirectory : directory ≠ []) : (join directory name).head? = directory.head? := by
  cases directory with
  | nil => contradiction
  | cons c directory =>
      rw [hname.join_eq]
      split <;> rfl

theorem IsName.start_join {name : Text} (hname : IsName name) (directory : Text) :
    start (join directory name) = start directory := by
  by_cases hdirectory : directory = []
  · subst hdirectory
    have hjoin : join [] name = name := hname.join_eq []
    rw [hjoin, start, if_neg hname.head?_ne_slash, hname.components_eq, List.head?_cons,
      if_neg (fun h => hname.ne_current (Option.some.inj h))]
    rfl
  · rcases hname.components_join directory with ⟨front, hfront, hjoin⟩
    have hhead : (components (join directory name)).head? = some ['.'] ↔
        (components directory).head? = some ['.'] := by
      rw [hjoin]
      cases front with
      | nil =>
          have hne : components directory ≠ [] := List.splitOn_ne_nil '/' directory
          have hempty : components directory = [[]] := hfront.resolve_left hne
          simp [hempty, hname.ne_current]
      | cons c front =>
          rcases hfront with hfront | hfront <;> simp [hfront]
    rw [start, start, hname.head?_join hdirectory]
    simp only [hhead]

theorem IsName.parts_join {name : Text} (hname : IsName name) (directory : Text) :
    parts (join directory name) = parts directory ++ [.name name] := by
  rw [parts, parts, hname.start_join, hname.steps_join, List.map_append, List.append_assoc,
    List.map_singleton, Component.ofStep, if_neg hname.ne_parent]

/-- The paths of two entries of a directory are in the order of the bytes of their names, which
is the order of their characters. -/
theorem order_join {first second : Text} (hfirst : IsName first) (hsecond : IsName second)
    (directory : Text) :
    order (join directory first) (join directory second) = compare first second := by
  rw [order, hfirst.parts_join, hsecond.parts_join, compareLex_append_self Component.order_self,
    List.compareLex_cons_cons, Component.order, Text.compareBytes_eq]
  exact Ordering.then_eq

end MakeOutline.Path

namespace MakeOutline

/-- Of the path of an entry only the name tells whether it is that of a makefile. -/
theorem namesMakefile_join {name : Text} (hname : Path.IsName name) (directory : Text) :
    namesMakefile (Path.join directory name) = namesMakefile name := by
  have hself : Path.join [] name = name := hname.join_eq []
  have halone : Path.fileName? name = some name := by
    rw [← hname.fileName?_join [], hself]
  rw [namesMakefile, namesMakefile, hname.fileName?_join, halone]

end MakeOutline
