import MakeOutline.CommandLine.Run
import MakeOutline.FileTree

/-!
# Runs on a makefile that is found

A run that names no makefile finds one.  It then prints what it prints when the entry that
was found is named at the end of the command line, behind `--` where it might be taken for
an option, and if nothing is found it fails with the reason for that.  Words are read from
the left, so a file named behind them changes nothing of what they say.
-/

namespace MakeOutline.CommandLine

namespace Given

theorem addFiles_addFiles (given : Given) (first second : List Text) :
    (given.addFiles first).addFiles second = given.addFiles (first ++ second) := by
  simp [addFiles]

theorem read_file_cons (given : Given) {word : Text} (words : List Text)
    (hword : isOption word = false) :
    given.read (word :: words) = (given.addFiles [word]).read words := by
  rw [read.eq_def]
  simp [hword]

theorem read_separator_cons (given : Given) (words : List Text) :
    given.read (['-', '-'] :: words) = .ok (given.addFiles words) := by
  rw [read.eq_def]
  simp [isOption]

/-- How reading goes on behind words that leave `result`: with the options, or with nothing
but files once `--` has ended the options. -/
def GoesOn (given result : Given) (words : List Text) : Prop :=
  (∀ more, given.read (words ++ more) = result.read more) ∨
    ∀ more, given.read (words ++ more) = .ok (result.addFiles more)

theorem GoesOn.of_step {given next result : Given} {words : List Text} (front : List Text)
    (hrest : GoesOn next result words)
    (hstep : ∀ more, given.read (front ++ more) = next.read more) :
    GoesOn given result (front ++ words) := by
  rcases hrest with hoptions | hfiles
  · left
    intro more
    rw [List.append_assoc, hstep, hoptions]
  · right
    intro more
    rw [List.append_assoc, hstep, hfiles]

theorem goesOn_of_read {given result : Given} {words : List Text}
    (hread : given.read words = .ok result) : GoesOn given result words := by
  -- Reading takes one word or two at a time; only `--` ends it with words left over.
  fun_induction Given.read given words with
  | case1 given =>
      obtain rfl := Except.ok.inj hread
      exact .inl fun more => rfl
  | case2 given word words hfile ih =>
      refine (ih hread).of_step [word] fun more => ?_
      exact read_file_cons given more (by simpa using hfile)
  | case3 given words hoption =>
      obtain rfl := Except.ok.inj hread
      right
      intro more
      rw [List.cons_append, read_separator_cons, addFiles_addFiles]
  | case4 => contradiction
  | case5 given word hoption hends count words hword ih =>
      refine (ih hread).of_step [word] fun more => ?_
      rw [List.singleton_append, read.eq_3 _ _ _ _ hword, if_neg hoption, if_neg hends]
  | case6 given word hoption hends count setting name value words hword ih =>
      refine (ih hread).of_step [word] fun more => ?_
      rw [List.singleton_append, read.eq_4 _ _ _ _ _ _ _ hword, if_neg hoption, if_neg hends]
  | case7 given word hoption hends count setting name value words hword ih =>
      refine (ih hread).of_step [word, value] fun more => ?_
      rw [List.cons_append, List.singleton_append, read.eq_5 _ _ _ _ _ _ _ hword,
        if_neg hoption, if_neg hends]
  | case8 => contradiction

theorem isOption_eq_false {word : Text} (hword : word.head? ≠ some '-') :
    isOption word = false := by
  unfold isOption
  split
  next => exact absurd rfl hword
  next => rfl

end Given

namespace Options

theorem ofGiven?_addFiles {given : Given} {options : Options} (files : List Text)
    (hgiven : ofGiven? given = .ok options) :
    ofGiven? (given.addFiles files) = .ok { options with files := options.files ++ files } := by
  unfold ofGiven? at hgiven
  split at hgiven
  next => contradiction
  next hdirectories =>
    split at hgiven
    next => contradiction
    next htargets =>
      split at hgiven
      next => contradiction
      next hhelp =>
        obtain rfl := Except.ok.inj hgiven
        have hdirectories' : ¬(given.addFiles files).directories.length > 1 := hdirectories
        have htargets' : ¬(given.addFiles files).targets.length > 1 := htargets
        have hhelp' : ¬(given.addFiles files).helpCount > 1 := hhelp
        rw [ofGiven?, if_neg hdirectories', if_neg htargets', if_neg hhelp']
        rfl

/-- The words name the file and say for the rest what the options are. -/
def NamedBy (options : Options) (name : Text) (words : List Text) : Prop :=
  ofWords? words = .ok { options with files := options.files ++ [name] }

theorem namedBy_append {words more : List Text} {given : Given} {options : Options} {name : Text}
    (hgiven : ofGiven? given = .ok options)
    (hread : Given.empty.read (words ++ more) = .ok (given.addFiles [name])) :
    options.NamedBy name (words ++ more) := by
  rw [NamedBy, ofWords?, hread]
  exact ofGiven?_addFiles [name] hgiven

/-- A file can be named behind words that are accepted.  It may be taken for an option
only if it begins with a dash and no `--` has ended the options. -/
theorem namedBy_of_ofWords? {words : List Text} {options : Options}
    (hwords : ofWords? words = .ok options) (name : Text) :
    (options.NamedBy name (words ++ [name]) ∨
        options.NamedBy name (words ++ [['-', '-'], name])) ∧
      (name.head? ≠ some '-' → options.NamedBy name (words ++ [name])) := by
  unfold ofWords? at hwords
  split at hwords
  next given hread =>
    rcases Given.goesOn_of_read hread with hoptions | hfiles
    · constructor
      · right
        apply namedBy_append hwords
        rw [hoptions, Given.read_separator_cons]
      · intro hname
        apply namedBy_append hwords
        rw [hoptions, Given.read_file_cons given [] (Given.isOption_eq_false hname), Given.read]
    · have hnamed := namedBy_append hwords (hfiles [name])
      exact ⟨.inl hnamed, fun _ => hnamed⟩
  next => contradiction

end Options

theorem run_of_ofWords? (files : FileSystem) {words : List Text} {options : Options}
    (hwords : Options.ofWords? words = .ok options) :
    run files words = runOptions files options := by
  rw [run, hwords]

/-- The output for some files does not hang on which files the options name. -/
theorem filesOutput_with_files (files : FileSystem) (options : Options) (named paths : List Text) :
    filesOutput files { options with files := named } paths = filesOutput files options paths := by
  induction paths with
  | nil => rfl
  | cons path paths ih =>
      have hfile : fileOutput files { options with files := named } path =
          fileOutput files options path := rfl
      rw [filesOutput, filesOutput, hfile, ih]

theorem makefilePaths_of_files_eq_singleton {files : FileSystem} {options : Options} {name : Text}
    (hfiles : options.files = [name]) :
    makefilePaths files options = .ok [Path.join options.directory name] := by
  rw [makefilePaths, hfiles]
  rfl

theorem makefilePaths_of_no_files (files : FileSystem) {options : Options}
    (hfiles : options.files = []) :
    makefilePaths files options =
      match makefileIn files options.directory with
      | .ok (some path) => .ok [path]
      | .ok none => .error (.noMakefile options.directory)
      | .error failure => .error (.failure failure) := by
  rw [makefilePaths, hfiles]
  cases makefileIn files options.directory with
  | error failure => rfl
  | ok path? => cases path? <;> rfl

/-- The path that is found and the path of the file that is named are one and the same. -/
theorem runOptions_of_makefileIn {files : FileSystem} {options : Options} {name : Text}
    (hfiles : options.files = [])
    (hfound : makefileIn files options.directory =
      .ok (some (Path.join options.directory name))) :
    runOptions files { options with files := options.files ++ [name] } =
      runOptions files options := by
  have hnamed : makefilePaths files { options with files := options.files ++ [name] } =
      .ok [Path.join options.directory name] := by
    apply makefilePaths_of_files_eq_singleton
    rw [hfiles, List.nil_append]
  have hdiscovered : makefilePaths files options = .ok [Path.join options.directory name] := by
    rw [makefilePaths_of_no_files files hfiles, hfound]
  unfold runOptions
  rw [hnamed, hdiscovered]
  dsimp only
  rw [filesOutput_with_files]

theorem run_of_makefilePaths_error {files : FileSystem} {words : List Text} {options : Options}
    {error : RunError} (hwords : Options.ofWords? words = .ok options)
    (hpaths : makefilePaths files options = .error error) :
    run files words =
      if options.help then ⟨usageText, [], 0⟩
      else ⟨[], "Error: ".toList ++ error.report ++ ['\n'], 1⟩ := by
  rw [run_of_ofWords? files hwords, runOptions, hpaths]
  rfl

/-- The name of a conventional makefile or of an entry of the directory. -/
def IsEntryName (files : FileSystem) (directory name : Text) : Prop :=
  name ∈ conventionalNames ∨ ∃ names, files.names directory = .ok names ∧ name ∈ names

theorem exists_entryName_of_makefileIn {files : FileSystem} {directory path : Text}
    (hfound : makefileIn files directory = .ok (some path)) :
    ∃ name, IsEntryName files directory name ∧ path = Path.join directory name := by
  unfold makefileIn at hfound
  split at hfound
  next conventional hconventional =>
    obtain rfl : conventional = path := Option.some.inj (Except.ok.inj hfound)
    have hmem := List.mem_of_find?_eq_some hconventional
    obtain ⟨name, hname, hjoin⟩ := List.mem_map.mp hmem
    exact ⟨name, .inl hname, hjoin.symm⟩
  next =>
    split at hfound
    next => contradiction
    next names hnames =>
      obtain ⟨name, hhead, hjoin⟩ := Option.map_eq_some_iff.mp (Except.ok.inj hfound)
      have hsorted := List.mem_of_mem_head? hhead
      have hcandidate := List.mem_mergeSort.mp hsorted
      exact ⟨name, .inr ⟨names, hnames, (List.mem_filter.mp hcandidate).1⟩, hjoin.symm⟩

/-- A run with these words, which found the file at this path, goes as a run that names it. -/
structure RunsAsNamed (files : FileSystem) (options : Options) (words : List Text)
    (path : Text) : Prop where
  entry : ∃ name, IsEntryName files options.directory name ∧
    path = Path.join options.directory name
  named : ∀ name, path = Path.join options.directory name → ∀ naming,
    options.NamedBy name naming → run files naming = run files words
  behind : ∀ name, options.NamedBy name (words ++ [name]) ∨
    options.NamedBy name (words ++ [['-', '-'], name])
  behind_of_no_dash : ∀ name, name.head? ≠ some '-' → options.NamedBy name (words ++ [name])

theorem runsAsNamed_of_makefileIn {files : FileSystem} {options : Options} {words : List Text}
    {path : Text} (hwords : Options.ofWords? words = .ok options) (hfiles : options.files = [])
    (hfound : makefileIn files options.directory = .ok (some path)) :
    RunsAsNamed files options words path where
  entry := exists_entryName_of_makefileIn hfound
  named := by
    intro name hpath naming hnaming
    subst path
    rw [run_of_ofWords? files hnaming, run_of_ofWords? files hwords]
    exact runOptions_of_makefileIn hfiles hfound
  behind := fun name => (Options.namedBy_of_ofWords? hwords name).1
  behind_of_no_dash := fun name => (Options.namedBy_of_ofWords? hwords name).2

/-- A run without files goes by what is found in the directory: it runs as if the file that
is found had been named, or it fails because nothing is found or the directory cannot be
read. -/
theorem run_of_no_files (files : FileSystem) {words : List Text} {options : Options}
    (hwords : Options.ofWords? words = .ok options) (hfiles : options.files = []) :
    match makefileIn files options.directory with
    | .ok (some path) => RunsAsNamed files options words path
    | .ok none =>
      run files words =
        if options.help then ⟨usageText, [], 0⟩
        else
          ⟨[], "Error: ".toList ++
            RunError.messageReport ("no makefile found in ".toList ++ options.directory) ++
              ['\n'], 1⟩
    | .error failure =>
      run files words =
        if options.help then ⟨usageText, [], 0⟩
        else ⟨[], "Error: ".toList ++ failure.report ++ ['\n'], 1⟩ := by
  have hpaths := makefilePaths_of_no_files files hfiles
  split
  next path hfound => exact runsAsNamed_of_makefileIn hwords hfiles hfound
  next hfound =>
    rw [hfound] at hpaths
    exact run_of_makefilePaths_error hwords hpaths
  next failure hfound =>
    rw [hfound] at hpaths
    exact run_of_makefilePaths_error hwords hpaths

/-- A tree in which the only makefile has a name that begins with a dash. -/
def dashedTree : FileTree :=
  FileTree.empty.addFile "sub/-x.mk".toList "all:\n\tcc $(FLAGS)\n".toUTF8

theorem run_of_no_files_dashed_name :
    run dashedTree.fileSystem ["-C".toList, "sub".toList, "-t".toList, "all".toList] =
      run dashedTree.fileSystem
        ["-C".toList, "sub".toList, "-t".toList, "all".toList, "--".toList, "-x.mk".toList] := by
  let options : Options := ⟨"sub".toList, some "all".toList, [], false, []⟩
  have hwords : Options.ofWords? ["-C".toList, "sub".toList, "-t".toList, "all".toList] =
      .ok options := by rfl
  have hnaming : options.NamedBy "-x.mk".toList
      ["-C".toList, "sub".toList, "-t".toList, "all".toList, "--".toList, "-x.mk".toList] := by
    rfl
  have hconventional : conventionalIn? dashedTree.fileSystem options.directory = none := by rfl
  have hnames : dashedTree.fileSystem.names options.directory = .ok ["-x.mk".toList] := by rfl
  have hcandidates : (["-x.mk".toList].filter fun name =>
      dashedTree.fileSystem.isFile (Path.join options.directory name) &&
        namesMakefile (Path.join options.directory name)) = ["-x.mk".toList] := by
    rfl
  have hfound : makefileIn dashedTree.fileSystem options.directory =
      .ok (some (Path.join options.directory "-x.mk".toList)) := by
    simp only [makefileIn, hconventional, hnames, hcandidates, List.mergeSort_singleton]
    rfl
  have hrun := run_of_no_files dashedTree.fileSystem hwords (by rfl)
  rw [hfound] at hrun
  exact (hrun.named _ rfl _ hnaming).symm

-- A makefile that is found may still not be opened.
example (cause : ReadFailure) :
    run
        { isFile := (· == "./Makefile".toList)
          names := fun _ => .ok ["Makefile".toList]
          opened := fun _ => .error cause } [] =
      .ofOutput [] (some (.failure (.read "./Makefile".toList cause))) := by
  rfl

end MakeOutline.CommandLine
