import MakeOutline.Proofs.DirectoryListing

/-!
# Which makefile of a directory is chosen

The makefile of a directory is the first of the conventional names that is a file there, and
otherwise, of the files whose names look like those of makefiles, the one whose name comes first in
the order of the bytes.  So it hangs only on which files the directory has, and not on the order in
which they are listed or on what else is listed.
-/

namespace MakeOutline

/-! ## What is in a directory -/

namespace FileSystem

def HasMakefile (files : FileSystem) (directory name : Text) : Prop :=
  files.HasFile directory name ∧ namesMakefile name = true

def NoConventional (files : FileSystem) (directory : Text) : Prop :=
  ∀ name ∈ conventionalNames, ¬files.HasFile directory name

def FirstConventional (files : FileSystem) (directory name : Text) : Prop :=
  files.HasFile directory name ∧ ∃ before after, conventionalNames = before ++ name :: after ∧
    ∀ earlier ∈ before, ¬files.HasFile directory earlier

end FileSystem

/-- What there is to choose from in a directory, and what is chosen. -/
inductive Picks (files : FileSystem) (directory : Text) : Option Text → Prop where
  | conventional {name : Text} (hfirst : files.FirstConventional directory name) :
    Picks files directory (some (Path.join directory name))
  | least {name : Text} (hnone : files.NoConventional directory)
      (hmakefile : files.HasMakefile directory name)
      (hleast : ∀ other, files.HasMakefile directory other →
        (Text.compareBytes name other).isLE = true) :
    Picks files directory (some (Path.join directory name))
  | nothing (hnone : files.NoConventional directory)
      (hnothing : ∀ name, ¬files.HasMakefile directory name) :
    Picks files directory none

/-! ## The conventional names -/

theorem isName_of_mem_conventionalNames {name : Text} (hname : name ∈ conventionalNames) :
    Path.IsName name := by
  simp only [conventionalNames, List.mem_cons, List.not_mem_nil, or_false] at hname
  rcases hname with rfl | rfl | rfl <;> constructor <;> decide

theorem namesMakefile_of_mem_conventionalNames {name : Text} (hname : name ∈ conventionalNames) :
    namesMakefile name = true := by
  simp only [conventionalNames, List.mem_cons, List.not_mem_nil, or_false] at hname
  rcases hname with rfl | rfl | rfl <;> rfl

theorem FileSystem.FirstConventional.mem {files : FileSystem} {directory name : Text}
    (hfirst : files.FirstConventional directory name) : name ∈ conventionalNames := by
  rcases hfirst with ⟨-, before, after, horder, -⟩
  rw [horder]
  exact List.mem_append_right before List.mem_cons_self

theorem FileSystem.FirstConventional.hasMakefile {files : FileSystem} {directory name : Text}
    (hfirst : files.FirstConventional directory name) : files.HasMakefile directory name :=
  ⟨hfirst.1, namesMakefile_of_mem_conventionalNames hfirst.mem⟩

theorem conventionalIn?_eq_none_iff {files : FileSystem} {directory : Text} :
    conventionalIn? files directory = none ↔ files.NoConventional directory := by
  simp only [conventionalIn?, List.find?_eq_none, List.forall_mem_map]
  constructor
  · intro hnone name hname hfile
    exact hnone name hname hfile.isFile
  · intro hnone name hname hfile
    exact hnone name hname ⟨isName_of_mem_conventionalNames hname, hfile⟩

theorem conventionalIn?_eq_some_iff {files : FileSystem} {directory path : Text} :
    conventionalIn? files directory = some path ↔
      ∃ name, files.FirstConventional directory name ∧ path = Path.join directory name := by
  rw [conventionalIn?, List.find?_map, Option.map_eq_some_iff]
  constructor
  · rintro ⟨name, hfind, rfl⟩
    rcases List.find?_eq_some_iff_append.mp hfind with ⟨hfile, before, after, horder, hbefore⟩
    have hmem : name ∈ conventionalNames := List.mem_of_find?_eq_some hfind
    refine ⟨name, ⟨⟨isName_of_mem_conventionalNames hmem, hfile⟩, before, after, horder, ?_⟩, rfl⟩
    intro earlier hearlier hearlierFile
    have hno := hbefore earlier hearlier
    rw [Function.comp_apply, hearlierFile.isFile] at hno
    contradiction
  · rintro ⟨name, ⟨hfile, before, after, horder, hbefore⟩, rfl⟩
    refine ⟨name, List.find?_eq_some_iff_append.mpr ⟨hfile.isFile, before, after, horder, ?_⟩, rfl⟩
    intro earlier hearlier
    have hmem : earlier ∈ conventionalNames := by
      rw [horder]
      exact List.mem_append_left _ hearlier
    rw [Function.comp_apply, Bool.not_eq_true', ← Bool.not_eq_true]
    intro hisFile
    exact hbefore earlier hearlier ⟨isName_of_mem_conventionalNames hmem, hisFile⟩

/-! ## The least name -/

/-- The first of the texts when they are sorted is the least of them. -/
theorem head?_mergeSort_eq_some_iff {texts : List Text} {text : Text} :
    (texts.mergeSort fun a b => (compare a b).isLE).head? = some text ↔
      text ∈ texts ∧ ∀ other ∈ texts, (compare text other).isLE = true := by
  have hsorted : (texts.mergeSort fun a b => (compare a b).isLE).Pairwise
      fun a b => (compare a b).isLE :=
    List.pairwise_mergeSort (fun _ _ _ => Std.TransCmp.isLE_trans) isLE_total texts
  have hmem : ∀ {other}, other ∈ texts.mergeSort (fun a b => (compare a b).isLE) ↔
      other ∈ texts := List.mem_mergeSort
  cases hsort : texts.mergeSort fun a b => (compare a b).isLE with
  | nil =>
      rw [hsort] at hmem
      constructor
      · intro hhead
        contradiction
      · rintro ⟨htext, -⟩
        exact absurd (hmem.mpr htext) List.not_mem_nil
  | cons first rest =>
      rw [hsort] at hsorted hmem
      have hfirst : ∀ other ∈ texts, (compare first other).isLE = true := by
        intro other hother
        rcases List.mem_cons.mp (hmem.mpr hother) with rfl | hrest
        · rw [Std.ReflOrd.compare_self]
          rfl
        · exact List.rel_of_pairwise_cons hsorted hrest
      rw [List.head?_cons, Option.some_inj]
      constructor
      · rintro rfl
        exact ⟨hmem.mp List.mem_cons_self, hfirst⟩
      · rintro ⟨htext, hleast⟩
        have hle := hfirst text htext
        have hge := hleast first (hmem.mp List.mem_cons_self)
        exact Std.LawfulEqOrd.eq_of_compare (Std.OrientedCmp.isLE_antisymm hle hge)

/-! ## The choice -/

variable {files : FileSystem} {directory : Text}

theorem FileSystem.FirstConventional.not_noConventional {name : Text}
    (hfirst : files.FirstConventional directory name) : ¬files.NoConventional directory :=
  fun hnone => hnone name hfirst.mem hfirst.1

theorem firstConventional_or_noConventional (files : FileSystem) (directory : Text) :
    (∃ name, files.FirstConventional directory name) ∨ files.NoConventional directory := by
  cases hconventional : conventionalIn? files directory with
  | none => exact .inr (conventionalIn?_eq_none_iff.mp hconventional)
  | some path =>
      rcases conventionalIn?_eq_some_iff.mp hconventional with ⟨name, hfirst, -⟩
      exact .inl ⟨name, hfirst⟩

theorem makefileIn_of_firstConventional {name : Text}
    (hfirst : files.FirstConventional directory name) :
    makefileIn files directory = .ok (some (Path.join directory name)) := by
  have hconventional := conventionalIn?_eq_some_iff.mpr ⟨name, hfirst, rfl⟩
  rw [makefileIn, hconventional]

/-- The names that are sorted when there is no conventional makefile. -/
def candidates (files : FileSystem) (directory : Text) (names : List Text) : List Text :=
  names.filter fun name =>
    files.isFile (Path.join directory name) && namesMakefile (Path.join directory name)

theorem makefileIn_of_noConventional (hnone : files.NoConventional directory) :
    makefileIn files directory =
      match files.names directory with
      | .error cause => .error (.read directory cause)
      | .ok names =>
        .ok (((candidates files directory names).mergeSort fun a b =>
          (compare a b).isLE).head?.map (Path.join directory)) := by
  rw [makefileIn, conventionalIn?_eq_none_iff.mpr hnone]
  rfl

theorem makefileIn_eq_error_iff {failure : Failure} :
    makefileIn files directory = .error failure ↔
      files.NoConventional directory ∧
        ∃ cause, files.names directory = .error cause ∧ failure = .read directory cause := by
  rcases firstConventional_or_noConventional files directory with ⟨name, hfirst⟩ | hnone
  · rw [makefileIn_of_firstConventional hfirst]
    simp [hfirst.not_noConventional]
  · rw [makefileIn_of_noConventional hnone]
    cases files.names directory with
    | error cause => simp [hnone, eq_comm]
    | ok names => simp

theorem FileSystem.Lists.mem_candidates_iff {names : List Text} {name : Text}
    (hlists : files.Lists directory names) :
    name ∈ candidates files directory names ↔ files.HasMakefile directory name := by
  rw [candidates, List.mem_filter, Bool.and_eq_true]
  constructor
  · rintro ⟨hmem, hfile, hnames⟩
    have hname := hlists.isName name hmem
    rw [namesMakefile_join hname] at hnames
    exact ⟨⟨hname, hfile⟩, hnames⟩
  · rintro ⟨hfile, hnames⟩
    rw [namesMakefile_join hfile.isName]
    exact ⟨hlists.mem name hfile, hfile.isFile, hnames⟩

theorem exists_makefileIn_eq_ok {names : List Text} (hlists : files.Lists directory names) :
    ∃ found, makefileIn files directory = .ok found := by
  cases hmakefile : makefileIn files directory with
  | ok found => exact ⟨found, rfl⟩
  | error failure =>
      rcases makefileIn_eq_error_iff.mp hmakefile with ⟨-, cause, hnames, -⟩
      rw [hlists.names_eq] at hnames
      contradiction

theorem picks_of_makefileIn {names : List Text} {found : Option Text}
    (hlists : files.Lists directory names) (hfound : makefileIn files directory = .ok found) :
    Picks files directory found := by
  rcases firstConventional_or_noConventional files directory with ⟨name, hfirst⟩ | hnone
  · rw [makefileIn_of_firstConventional hfirst] at hfound
    obtain rfl := Except.ok.inj hfound
    exact .conventional hfirst
  · rw [makefileIn_of_noConventional hnone, hlists.names_eq] at hfound
    obtain rfl := Except.ok.inj hfound
    cases hhead : ((candidates files directory names).mergeSort fun a b =>
        (compare a b).isLE).head? with
    | none =>
        apply Picks.nothing hnone
        intro name hmakefile
        have hcandidate := hlists.mem_candidates_iff.mpr hmakefile
        rw [← List.mem_mergeSort, List.head?_eq_none_iff.mp hhead] at hcandidate
        exact List.not_mem_nil hcandidate
    | some name =>
        have hleast := head?_mergeSort_eq_some_iff.mp hhead
        apply Picks.least hnone (hlists.mem_candidates_iff.mp hleast.1)
        intro other hother
        rw [Text.compareBytes_eq]
        exact hleast.2 other (hlists.mem_candidates_iff.mpr hother)

theorem Picks.unique {found other : Option Text} (hfound : Picks files directory found)
    (hother : Picks files directory other) : found = other := by
  cases hfound with
  | conventional hfirst =>
      cases hother with
      | conventional hother =>
          have hsame := makefileIn_of_firstConventional hother
          rw [makefileIn_of_firstConventional hfirst] at hsame
          exact Except.ok.inj hsame
      | least hnone => exact absurd hnone hfirst.not_noConventional
      | nothing hnone => exact absurd hnone hfirst.not_noConventional
  | least hnone hmakefile hleast =>
      cases hother with
      | conventional hfirst => exact absurd hnone hfirst.not_noConventional
      | least _ hother hotherLeast =>
          have hle := hleast _ hother
          have hge := hotherLeast _ hmakefile
          rw [Text.compareBytes_eq] at hle hge
          rw [Std.LawfulEqOrd.eq_of_compare (Std.OrientedCmp.isLE_antisymm hle hge)]
      | nothing _ hnothing => exact absurd hmakefile (hnothing _)
  | nothing hnone hnothing =>
      cases hother with
      | conventional hfirst => exact absurd hnone hfirst.not_noConventional
      | least _ hmakefile => exact absurd hmakefile (hnothing _)
      | nothing => rfl

theorem makefileIn_eq_ok_iff_picks {names : List Text} {found : Option Text}
    (hlists : files.Lists directory names) :
    makefileIn files directory = .ok found ↔ Picks files directory found := by
  constructor
  · exact picks_of_makefileIn hlists
  · intro hpicks
    rcases exists_makefileIn_eq_ok hlists with ⟨other, hother⟩
    rw [hother, hpicks.unique (picks_of_makefileIn hlists hother)]

theorem FileSystem.NoConventional.of_hasFile_iff {other : FileSystem}
    (hsame : ∀ name, files.HasFile directory name ↔ other.HasFile directory name)
    (hnone : files.NoConventional directory) : other.NoConventional directory := by
  intro name hname hfile
  exact hnone name hname ((hsame name).mpr hfile)

/-- What is picked hangs only on which files the directory has. -/
theorem Picks.of_hasFile_iff {other : FileSystem} {found : Option Text}
    (hsame : ∀ name, files.HasFile directory name ↔ other.HasFile directory name)
    (hpicks : Picks files directory found) : Picks other directory found := by
  have hmakefiles : ∀ name, files.HasMakefile directory name ↔ other.HasMakefile directory name :=
    fun name => and_congr_left' (hsame name)
  cases hpicks with
  | conventional hfirst =>
      rcases hfirst with ⟨hfile, before, after, horder, hbefore⟩
      refine .conventional ⟨(hsame _).mp hfile, before, after, horder, ?_⟩
      intro earlier hearlier hearlierFile
      exact hbefore earlier hearlier ((hsame earlier).mpr hearlierFile)
  | least hnone hmakefile hleast =>
      apply Picks.least (hnone.of_hasFile_iff hsame) ((hmakefiles _).mp hmakefile)
      intro other hother
      exact hleast other ((hmakefiles other).mpr hother)
  | nothing hnone hnothing =>
      apply Picks.nothing (hnone.of_hasFile_iff hsame)
      intro name hmakefile
      exact hnothing name ((hmakefiles name).mpr hmakefile)

/-- Sorting the paths of the candidates comes to the same as sorting their names. -/
theorem makefileIn_eq_sorted_paths {names : List Text} (hlists : files.Lists directory names)
    (hnone : files.NoConventional directory) :
    makefileIn files directory =
      .ok (((names.map (Path.join directory)).filter fun path =>
        files.isFile path && namesMakefile path).mergeSort fun path other =>
          (Path.order path other).isLE).head? := by
  have hname : ∀ name ∈ candidates files directory names, Path.IsName name :=
    fun name hmem => hlists.isName name (List.mem_of_mem_filter hmem)
  have hsort : ((candidates files directory names).mergeSort fun a b => (compare a b).isLE).map
      (Path.join directory) =
        ((candidates files directory names).map (Path.join directory)).mergeSort fun path other =>
          (Path.order path other).isLE := by
    apply List.map_mergeSort
    intro first hfirst second hsecond
    rw [Path.order_join (hname first hfirst) (hname second hsecond)]
  rw [makefileIn_of_noConventional hnone, hlists.names_eq, List.filter_map]
  dsimp only
  rw [← List.head?_map, hsort]
  rfl

theorem isFile_of_makefileIn {path : Text} (hfound : makefileIn files directory = .ok (some path)) :
    files.isFile path = true := by
  rcases firstConventional_or_noConventional files directory with ⟨name, hfirst⟩ | hnone
  · rw [makefileIn_of_firstConventional hfirst] at hfound
    obtain rfl := Option.some.inj (Except.ok.inj hfound)
    exact hfirst.1.isFile
  · rw [makefileIn_of_noConventional hnone] at hfound
    split at hfound
    next => contradiction
    next names hnames =>
      rcases Option.map_eq_some_iff.mp (Except.ok.inj hfound) with ⟨name, hhead, rfl⟩
      have hmem := (head?_mergeSort_eq_some_iff.mp hhead).1
      have hkept := (List.mem_filter.mp hmem).2
      rw [Bool.and_eq_true] at hkept
      exact hkept.1

theorem exists_hasMakefile_of_picks {path : Text} (hpicks : Picks files directory (some path)) :
    ∃ name, path = Path.join directory name ∧ files.HasMakefile directory name := by
  cases hpicks with
  | conventional hfirst => exact ⟨_, rfl, hfirst.hasMakefile⟩
  | least _ hmakefile => exact ⟨_, rfl, hmakefile⟩

/-- How the makefile of a directory is chosen.  Where the choice needs a listing, the names of
the entries may be listed in any order. -/
structure ChoosesMakefile (files : FileSystem) (directory : Text) : Prop where
  picked : ∀ names, files.Lists directory names → ∀ found,
    makefileIn files directory = .ok found ↔ Picks files directory found
  /-- A conventional makefile is found even where the directory cannot be listed. -/
  conventional : ∀ name, files.FirstConventional directory name →
    makefileIn files directory = .ok (some (Path.join directory name))
  found_iff : ∀ names, files.Lists directory names →
    ((∃ path, makefileIn files directory = .ok (some path)) ↔
      ∃ name, files.HasMakefile directory name)
  hasMakefile : ∀ names, files.Lists directory names → ∀ path,
    makefileIn files directory = .ok (some path) →
      ∃ name, path = Path.join directory name ∧ files.HasMakefile directory name
  isFile : ∀ path, makefileIn files directory = .ok (some path) → files.isFile path = true
  /-- Another listing gives the same makefile if the directory has the same files. -/
  order_free : ∀ names, files.Lists directory names →
    ∀ (other : FileSystem) (otherNames : List Text), other.Lists directory otherNames →
      (∀ name, files.HasFile directory name ↔ other.HasFile directory name) →
        makefileIn other directory = makefileIn files directory
  sorted : ∀ names, files.Lists directory names → files.NoConventional directory →
    makefileIn files directory =
      .ok (((names.map (Path.join directory)).filter fun path =>
        files.isFile path && namesMakefile path).mergeSort fun path other =>
          (Path.order path other).isLE).head?
  failed_iff : ∀ failure, makefileIn files directory = .error failure ↔
    files.NoConventional directory ∧
      ∃ cause, files.names directory = .error cause ∧ failure = .read directory cause

theorem makefileIn_chooses (files : FileSystem) (directory : Text) :
    ChoosesMakefile files directory where
  picked := fun _ hlists _ => makefileIn_eq_ok_iff_picks hlists
  conventional := fun _ => makefileIn_of_firstConventional
  found_iff := by
    intro names hlists
    constructor
    · rintro ⟨path, hfound⟩
      have hpicks := picks_of_makefileIn hlists hfound
      rcases exists_hasMakefile_of_picks hpicks with ⟨name, -, hmakefile⟩
      exact ⟨name, hmakefile⟩
    · rintro ⟨name, hmakefile⟩
      rcases exists_makefileIn_eq_ok hlists with ⟨found, hfound⟩
      cases picks_of_makefileIn hlists hfound with
      | conventional => exact ⟨_, hfound⟩
      | least => exact ⟨_, hfound⟩
      | nothing _ hnothing => exact absurd hmakefile (hnothing name)
  hasMakefile := fun _ hlists _ hfound =>
    exists_hasMakefile_of_picks (picks_of_makefileIn hlists hfound)
  isFile := fun _ => isFile_of_makefileIn
  order_free := by
    intro names hlists other otherNames hother hsame
    rcases exists_makefileIn_eq_ok hlists with ⟨found, hfound⟩
    rw [hfound, makefileIn_eq_ok_iff_picks hother]
    exact (picks_of_makefileIn hlists hfound).of_hasFile_iff hsame
  sorted := fun _ => makefileIn_eq_sorted_paths
  failed_iff := fun _ => makefileIn_eq_error_iff

/-- A tree with a directory in the place of a conventional makefile. -/
def capitalTree : FileTree :=
  ((FileTree.empty.addFile "sub/rules.mk".toList ⟨#[]⟩).addFile
    "sub/Makefile/all.mk".toList ⟨#[]⟩).addFile "sub/Rules.MK".toList ⟨#[]⟩

/-- The directory `Makefile` is passed over, and a capital letter comes before a small one. -/
theorem makefileIn_chooses_capital_first :
    capitalTree.fileSystem.Lists "sub".toList
        ["Rules.MK".toList, "Makefile".toList, "rules.mk".toList] ∧
      capitalTree.fileSystem.NoConventional "sub".toList ∧
      Picks capitalTree.fileSystem "sub".toList (some "sub/Rules.MK".toList) := by
  have hbuilt : capitalTree.Built :=
    ((FileTree.Built.empty.addFile _ _).addFile _ _).addFile _ _
  have hlists : capitalTree.fileSystem.Lists "sub".toList
      ["Rules.MK".toList, "Makefile".toList, "rules.mk".toList] := hbuilt.lists (by rfl)
  have hnone : capitalTree.fileSystem.NoConventional "sub".toList :=
    conventionalIn?_eq_none_iff.mp (by rfl)
  have hcandidates : candidates capitalTree.fileSystem "sub".toList
      ["Rules.MK".toList, "Makefile".toList, "rules.mk".toList] =
        ["Rules.MK".toList, "rules.mk".toList] := by
    rfl
  have hleast : (["Rules.MK".toList, "rules.mk".toList].mergeSort fun a b =>
      (compare a b).isLE).head? = some "Rules.MK".toList :=
    head?_mergeSort_eq_some_iff.mpr (by decide)
  have hfound : makefileIn capitalTree.fileSystem "sub".toList =
      .ok (some "sub/Rules.MK".toList) := by
    rw [makefileIn_of_noConventional hnone, hlists.names_eq]
    dsimp only
    rw [hcandidates, hleast]
    rfl
  exact ⟨hlists, hnone,
    ((makefileIn_chooses capitalTree.fileSystem "sub".toList).picked _ hlists _).mp hfound⟩

end MakeOutline
