import MakeOutline.FileTree
import MakeOutline.Proofs.PathOrder
import MakeOutline.Proofs.WellFormed

/-!
# The entries of a directory

A listing of a directory has a name for each of its files.  Those of a file tree do: the path of an
entry takes the steps of the directory's path and one more, so a file that this step leads to stands
among the entries that are listed.
-/

namespace MakeOutline

namespace FileSystem

/-- A file of this name is right in the directory. -/
structure HasFile (files : FileSystem) (directory name : Text) : Prop where
  isName : Path.IsName name
  isFile : files.isFile (Path.join directory name) = true

/-- The names are those of the entries of the directory, in any order, with none of its files left
out. -/
structure Lists (files : FileSystem) (directory : Text) (names : List Text) : Prop where
  names_eq : files.names directory = .ok names
  isName : ∀ name ∈ names, Path.IsName name
  mem : ∀ name, files.HasFile directory name → name ∈ names

end FileSystem

namespace FileTree

variable {tree : FileTree} {place next : Place} {path directory name : Text}

/-! ## Names in a tree -/

/-- Nothing but names of entries leads to the place. -/
def Place.Named (place : Place) : Prop :=
  ∀ components, place = .inside components → ∀ name ∈ components, Path.IsName name

structure Named (tree : FileTree) : Prop where
  files : ∀ file ∈ tree.files, ∀ name ∈ file.1, Path.IsName name
  directories : ∀ components ∈ tree.directories, ∀ name ∈ components, Path.IsName name

theorem slash_not_mem_of_mem_components (hmem : name ∈ Path.components path) : '/' ∉ name := by
  rw [Path.components, List.splitOn_eq_splitOnP] at hmem
  intro hslash
  have hpiece := Text.forall_mem_of_mem_splitOnP hmem '/' hslash
  exact absurd hpiece.1 (by decide)

theorem Place.Named.step (hplace : place.Named) (hslash : '/' ∉ name) :
    (place.step name).Named := by
  cases place with
  | outside => exact hplace
  | inside components =>
      have hcomponents := hplace components rfl
      rw [Place.step]
      split
      next => exact hplace
      next hmoves =>
        split
        next =>
          split
          next => exact fun _ houtside => nomatch houtside
          next =>
            rintro _ ⟨⟩ other hother
            exact hcomponents other ((List.dropLast_sublist components).mem hother)
        next hparent =>
          rintro _ ⟨⟩ other hother
          rcases List.mem_append.mp hother with hbefore | hlast
          · exact hcomponents other hbefore
          · obtain rfl := List.mem_singleton.mp hlast
            exact ⟨fun h => hmoves (.inl h), fun h => hmoves (.inr h), hparent, hslash⟩

theorem Place.Named.of_mem_trail (hplace : place.Named) {names : List Text}
    (hslash : ∀ name ∈ names, '/' ∉ name) : ∀ next ∈ place.trail names, next.Named := by
  induction names generalizing place with
  | nil => exact fun next hnext => absurd hnext List.not_mem_nil
  | cons name names ih =>
      have hstep := hplace.step (hslash name List.mem_cons_self)
      intro next hnext
      rcases List.mem_cons.mp hnext with rfl | hlater
      · exact hstep
      · exact ih hstep (fun other hother => hslash other (List.mem_cons_of_mem name hother))
          next hlater

theorem named_of_mem_trailOf (hmem : place ∈ trailOf path) : place.Named := by
  have hroot : (Place.inside []).Named := by
    rintro _ ⟨⟩ name hname
    exact absurd hname List.not_mem_nil
  exact hroot.of_mem_trail (fun _ => slash_not_mem_of_mem_components) place hmem

theorem isName_of_components?_eq {components : List Text} (hmem : place ∈ trailOf path)
    (hplace : place.components? = some components) : ∀ name ∈ components, Path.IsName name := by
  cases place with
  | outside => contradiction
  | inside other =>
      obtain rfl := Option.some.inj hplace
      exact named_of_mem_trailOf hmem other rfl

theorem named_empty : empty.Named where
  files := fun _ hmem => absurd hmem List.not_mem_nil
  directories := fun _ hmem => absurd hmem List.not_mem_nil

theorem Named.addFile (htree : tree.Named) (path : Text) (bytes : ByteArray) :
    (tree.addFile path bytes).Named where
  files := by
    intro file hfile
    rcases List.mem_append.mp hfile with hnew | hold
    · rcases List.mem_map.mp hnew with ⟨components, hcomponents, rfl⟩
      have hbound := Option.mem_toList.mp hcomponents
      rcases Option.bind_eq_some_iff.mp hbound with ⟨place, hlast, hplace⟩
      exact isName_of_components?_eq (List.mem_of_mem_getLast? hlast) hplace
    · exact htree.files file hold
  directories := by
    intro components hmem
    rcases List.mem_append.mp hmem with hnew | hold
    · rcases List.mem_filterMap.mp hnew with ⟨place, hpassed, hplace⟩
      exact isName_of_components?_eq ((List.dropLast_sublist _).mem hpassed) hplace
    · exact htree.directories components hold

theorem Named.addDirectory (htree : tree.Named) (path : Text) : (tree.addDirectory path).Named where
  files := htree.files
  directories := by
    intro components hmem
    rcases List.mem_append.mp hmem with hnew | hold
    · rcases List.mem_filterMap.mp hnew with ⟨place, hpassed, hplace⟩
      exact isName_of_components?_eq hpassed hplace
    · exact htree.directories components hold

/-- The trees that are put together from files and directories. -/
inductive Built : FileTree → Prop where
  | empty : Built empty
  | addFile {before : FileTree} (hbefore : Built before) (path : Text) (bytes : ByteArray) :
    Built (before.addFile path bytes)
  | addDirectory {before : FileTree} (hbefore : Built before) (path : Text) :
    Built (before.addDirectory path)

theorem Built.named (htree : tree.Built) : tree.Named := by
  induction htree with
  | empty => exact named_empty
  | addFile _ path bytes ih => exact ih.addFile path bytes
  | addDirectory _ path ih => exact ih.addDirectory path

/-! ## The names below a place -/

theorem mem_namesBelow_iff {components : List Text} :
    name ∈ tree.namesBelow components ↔
      ∃ entry ∈ tree.files.map (·.1) ++ tree.directories,
        components <+: entry ∧ entry[components.length]? = some name := by
  rw [namesBelow, List.mem_eraseDups, List.mem_filterMap]
  simp only [Option.ite_none_right_eq_some, List.isPrefixOf_iff_prefix]

theorem Named.isName_of_mem_namesBelow (htree : tree.Named) {components : List Text}
    (hmem : name ∈ tree.namesBelow components) : Path.IsName name := by
  rcases mem_namesBelow_iff.mp hmem with ⟨entry, hentry, -, hname⟩
  have hin := List.mem_of_getElem? hname
  rcases List.mem_append.mp hentry with hpath | hdirectory
  · rcases List.mem_map.mp hpath with ⟨file, hfile, rfl⟩
    exact htree.files file hfile name hin
  · exact htree.directories entry hdirectory name hin

theorem mem_files_of_node? {components : List Text} {bytes : ByteArray}
    (hfile : tree.node? (.inside components) = some (.file bytes)) :
    (components, bytes) ∈ tree.files := by
  cases hlookup : tree.files.lookup components with
  | none =>
      rw [node?, hlookup] at hfile
      dsimp only at hfile
      split at hfile <;> simp at hfile
  | some found =>
      rw [node?, hlookup] at hfile
      obtain rfl : found = bytes := Node.file.inj (Option.some.inj hfile)
      rcases List.lookup_eq_some_iff.mp hlookup with ⟨before, after, hfiles, -⟩
      rw [hfiles]
      exact List.mem_append_right before List.mem_cons_self

theorem mem_namesBelow_of_file {components : List Text} {bytes : ByteArray}
    (hfile : tree.node? (.inside (components ++ [name])) = some (.file bytes)) :
    name ∈ tree.namesBelow components := by
  have hentry := List.mem_map_of_mem (f := (·.1)) (mem_files_of_node? hfile)
  have hlast : (components ++ [name])[components.length]? = some name := by simp
  exact mem_namesBelow_iff.mpr
    ⟨_, List.mem_append_left _ hentry, List.prefix_append components [name], hlast⟩

/-- The names of a directory are those below its place. -/
theorem node?_eq_directory {names : List Text}
    (hnode : tree.node? place = some (.directory names)) :
    (place = .outside ∧ names = []) ∨
      ∃ components, place = .inside components ∧ names = tree.namesBelow components := by
  cases place with
  | outside =>
      have hnames : [] = names := Node.directory.inj (Option.some.inj hnode)
      exact .inl ⟨rfl, hnames.symm⟩
  | inside components =>
      right
      cases hlookup : tree.files.lookup components with
      | some found => simp [node?, hlookup] at hnode
      | none =>
          simp only [node?, hlookup, Option.ite_none_right_eq_some, Option.some_inj,
            Node.directory.injEq] at hnode
          exact ⟨components, rfl, hnode.2.symm⟩

/-! ## The way to an entry -/

theorem walk_append (tree : FileTree) (place : Place) (first second : List Text) :
    tree.walk place (first ++ second) =
      match tree.walk place first with
      | .ok next => tree.walk next second
      | .error failure => .error failure := by
  induction first generalizing place with
  | nil => rfl
  | cons name first ih =>
      rw [List.cons_append, walk, walk]
      split
      next =>
        cases tree.enter place name with
        | ok next => exact ih next
        | error failure => rfl
      next => rfl
      next => rfl

theorem walk_singleton_eq_ok (hwalk : tree.walk place [name] = .ok next) :
    tree.enter place name = .ok next := by
  rw [walk] at hwalk
  split at hwalk
  next =>
    split at hwalk
    next hentered =>
      obtain rfl := Except.ok.inj hwalk
      exact hentered
    next => contradiction
  next => contradiction
  next => contradiction

theorem eq_of_walk_empty (hwalk : tree.walk place [[]] = .ok next) : next = place := by
  have hentered : Except.ok (place.step []) = Except.ok next := walk_singleton_eq_ok hwalk
  obtain rfl := Except.ok.inj hentered
  cases place <;> rfl

theorem enter_eq_ok (hname : Path.IsName name) (hentered : tree.enter place name = .ok next) :
    ∃ components, place = .inside components ∧ next = .inside (components ++ [name]) := by
  have hstays : Place.staysOrRises name = false := by
    simp [Place.staysOrRises, hname.ne_nil, hname.ne_current, hname.ne_parent]
  unfold enter at hentered
  rw [hstays, if_neg Bool.false_ne_true] at hentered
  cases place with
  | outside => contradiction
  | inside components =>
      have hstep : Place.step (.inside components) name = .inside (components ++ [name]) := by
        simp [Place.step, hname.ne_nil, hname.ne_current, hname.ne_parent]
      refine ⟨components, rfl, ?_⟩
      rw [hstep, if_neg Place.noConfusion] at hentered
      split at hentered
      next => contradiction
      next =>
        split at hentered
        next => exact (Except.ok.inj hentered).symm
        next => contradiction

theorem resolve_eq_ok (hresolve : tree.resolve path = .ok place) :
    path ≠ [] ∧ tree.walk (if path.head? = some '/' then .outside else .inside [])
      (Path.components path) = .ok place := by
  unfold resolve at hresolve
  split at hresolve
  next => contradiction
  next =>
    split at hresolve
    next => contradiction
    next hnonempty =>
      split at hresolve
      next => contradiction
      next => exact ⟨by simpa using hnonempty, hresolve⟩

theorem exists_place_of_lookup {node : Node} (hlookup : tree.lookup path = .ok node) :
    ∃ place, tree.resolve path = .ok place ∧ tree.node? place = some node := by
  unfold lookup at hlookup
  split at hlookup
  next => contradiction
  next place hresolve =>
    split at hlookup
    next found hnode =>
      obtain rfl := Except.ok.inj hlookup
      exact ⟨place, hresolve, hnode⟩
    next => contradiction

theorem lookup_of_names {names : List Text} (hnames : tree.fileSystem.names path = .ok names) :
    tree.lookup path = .ok (.directory names) := by
  unfold fileSystem at hnames
  dsimp only at hnames
  cases hlookup : tree.lookup path with
  | error failure =>
      rw [hlookup] at hnames
      contradiction
  | ok node =>
      rw [hlookup] at hnames
      cases node with
      | file bytes => contradiction
      | directory found =>
          obtain rfl := Except.ok.inj hnames
          rfl

theorem lookup_of_isFile (hfile : tree.fileSystem.isFile path = true) :
    ∃ bytes, tree.lookup path = .ok (.file bytes) := by
  unfold fileSystem at hfile
  dsimp only at hfile
  cases hlookup : tree.lookup path with
  | error failure =>
      rw [hlookup] at hfile
      contradiction
  | ok node =>
      rw [hlookup] at hfile
      cases node with
      | file bytes => exact ⟨bytes, rfl⟩
      | directory names => contradiction

/-- The path of an entry goes one step on from the place of the directory. -/
theorem walk_of_resolve_join (hname : Path.IsName name)
    (hdirectory : tree.resolve directory = .ok place)
    (hentry : tree.resolve (Path.join directory name) = .ok next) :
    ∃ components, place = .inside components ∧ next = .inside (components ++ [name]) := by
  rcases resolve_eq_ok hdirectory with ⟨hnonempty, hplace⟩
  have hnext := (resolve_eq_ok hentry).2
  rcases hname.components_join directory with ⟨front, hfront, hjoin⟩
  rw [hname.head?_join hnonempty, hjoin, walk_append] at hnext
  have hreached : tree.walk (if directory.head? = some '/' then .outside else .inside []) front =
      .ok place := by
    rcases hfront with hfront | hfront
    · rw [← hfront]
      exact hplace
    · rw [hfront, walk_append] at hplace
      split at hplace
      next before hbefore => rw [hbefore, eq_of_walk_empty hplace]
      next => contradiction
  rw [hreached] at hnext
  exact enter_eq_ok hname (walk_singleton_eq_ok hnext)

theorem Named.lists {names : List Text} (htree : tree.Named)
    (hnames : tree.fileSystem.names directory = .ok names) :
    tree.fileSystem.Lists directory names := by
  rcases exists_place_of_lookup (lookup_of_names hnames) with ⟨place, hplace, hnode⟩
  constructor
  · exact hnames
  · intro name hmem
    rcases node?_eq_directory hnode with ⟨-, rfl⟩ | ⟨components, -, rfl⟩
    · exact absurd hmem List.not_mem_nil
    · exact htree.isName_of_mem_namesBelow hmem
  · rintro name ⟨hname, hfile⟩
    rcases lookup_of_isFile hfile with ⟨bytes, hentry⟩
    rcases exists_place_of_lookup hentry with ⟨next, hnext, hbytes⟩
    rcases walk_of_resolve_join hname hplace hnext with ⟨components, rfl, rfl⟩
    rcases node?_eq_directory hnode with ⟨houtside, -⟩ | ⟨other, hinside, rfl⟩
    · contradiction
    · obtain rfl := Place.inside.inj hinside
      exact mem_namesBelow_of_file hbytes

/-- Whatever a tree is put together from, a directory of it that can be read is listed. -/
theorem Built.lists {names : List Text} (htree : tree.Built)
    (hnames : tree.fileSystem.names directory = .ok names) :
    tree.fileSystem.Lists directory names :=
  htree.named.lists hnames

end FileTree

end MakeOutline
