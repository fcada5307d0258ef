import Mathlib.Data.List.Forall2
import MakeOutline.Proofs.DiscoveredRuns

/-!
# Runs on several makefiles

A run on several makefiles is the runs on each of them alone, made one after the other up to
the first that fails.  Nothing is carried from one file to the next but the options, so each
of these runs can be made with a command line of its own that gives the same options and
names only that file.
-/

namespace MakeOutline.CommandLine

/-! ## Command lines for one file -/

/-- The words give these options, but for the files, of which they name this one only. -/
def Options.NamesOnly (options : Options) (name : Text) (words : List Text) : Prop :=
  ofWords? words = .ok { options with files := [name] }

def Setting.letter : Setting → Char
  | .directory => 'C'
  | .target => 't'
  | .define => 'D'

/-- The letter of a setting in one word and its value in the next. -/
def Setting.words (setting : Setting) (value : Text) : List Text :=
  [['-', setting.letter], value]

/-- A command line that gives these options, unless they ask for help. -/
def Options.words (options : Options) : List Text :=
  Setting.directory.words options.directory ++
    (options.target?.toList.flatMap Setting.target.words ++
      (options.defines.flatMap Setting.define.words ++ ['-', '-'] :: options.files))

namespace Given

theorem read_setting_append (given : Given) (setting : Setting) (value : Text)
    (words : List Text) :
    given.read (setting.words value ++ words) = (given.addValue setting value).read words := by
  have hword : OptionWord.read ['-', setting.letter] =
      .ok ⟨0, some ⟨setting, [setting.letter], none⟩⟩ := by
    cases setting <;> rfl
  have hends : ['-', setting.letter] ≠ ['-', '-'] := by
    cases setting <;> decide
  rw [Setting.words, List.cons_append, List.singleton_append, read.eq_5 _ _ _ _ _ _ _ hword,
    if_neg hends]
  rfl

theorem read_settings_append (given : Given) (setting : Setting) (values words : List Text) :
    given.read (values.flatMap setting.words ++ words) =
      (values.foldl (addValue · setting) given).read words := by
  induction values generalizing given with
  | nil => rfl
  | cons value values ih =>
      rw [List.flatMap_cons, List.append_assoc, read_setting_append, ih]
      rfl

theorem foldl_addValue_define (given : Given) (values : List Text) :
    values.foldl (addValue · .define) given =
      { given with defines := given.defines ++ values } := by
  induction values generalizing given with
  | nil => simp
  | cons value values ih =>
      rw [List.foldl_cons, ih]
      simp [addValue]

theorem read_words (options : Options) :
    Given.empty.read options.words =
      .ok ⟨[options.directory], options.target?.toList, options.defines, 0, options.files⟩ := by
  rw [Options.words, read_setting_append, read_settings_append, read_settings_append,
    read_separator_cons, foldl_addValue_define]
  cases options.target? <;> rfl

end Given

theorem Options.ofWords?_words (options : Options) (hhelp : options.help = false) :
    ofWords? options.words = .ok options := by
  rw [ofWords?, Given.read_words]
  cases options with
  | mk directory target? defines help files =>
      obtain rfl : help = false := hhelp
      cases target? <;> rfl

theorem Options.exists_namesOnly {options : Options} (hhelp : options.help = false)
    (name : Text) : ∃ words, options.NamesOnly name words :=
  ⟨_, ofWords?_words { options with files := [name] } hhelp⟩

/-! ## Outcomes one after the other -/

/-- The outcome of runs that are made in turn and end with the first that fails: the outputs
of all of them, and errors and exit code of the last one that is made. -/
def Outcome.InTurn (runs : List Outcome) (outcome : Outcome) : Prop :=
  ∃ above last below, runs = above ++ last :: below ∧
    (∀ earlier ∈ above, earlier.exitCode = 0) ∧ (below = [] ∨ last.exitCode ≠ 0) ∧
    outcome = ⟨above.flatMap Outcome.output ++ last.output, last.errors, last.exitCode⟩

namespace Outcome

theorem inTurn_singleton (outcome : Outcome) : InTurn [outcome] outcome := by
  refine ⟨[], outcome, [], rfl, ?_, .inl rfl, rfl⟩
  simp

theorem inTurn_of_failure {outcome : Outcome} (runs : List Outcome)
    (hfailure : outcome.exitCode ≠ 0) : InTurn (outcome :: runs) outcome := by
  refine ⟨[], outcome, runs, rfl, ?_, .inr hfailure, rfl⟩
  simp

theorem InTurn.cons {runs : List Outcome} {first outcome : Outcome}
    (hfirst : first.exitCode = 0) (hruns : InTurn runs outcome) :
    InTurn (first :: runs)
      ⟨first.output ++ outcome.output, outcome.errors, outcome.exitCode⟩ := by
  rcases hruns with ⟨above, last, below, rfl, habove, hend, rfl⟩
  refine ⟨first :: above, last, below, rfl, ?_, hend, ?_⟩
  · exact List.forall_mem_cons.mpr ⟨hfirst, habove⟩
  · rw [List.flatMap_cons, List.append_assoc]

end Outcome

/-! ## The runs -/

variable {files : FileSystem} {options : Options}

/-- The outcome of a run on one file. -/
def fileOutcome (files : FileSystem) (options : Options) (path : Text) : Outcome :=
  match fileOutput files options path with
  | .ok output => .ofOutput output none
  | .error error => .ofOutput [] (some error)

theorem ofOutput_filesOutput_singleton (files : FileSystem) (options : Options) (path : Text) :
    .ofOutput (filesOutput files options [path]).1 (filesOutput files options [path]).2 =
      fileOutcome files options path := by
  rw [filesOutput, fileOutcome]
  cases fileOutput files options path with
  | ok output =>
      simp only [filesOutput, List.append_nil]
  | error error => rfl

theorem inTurn_filesOutput (files : FileSystem) (options : Options) {paths : List Text}
    (hpaths : paths ≠ []) :
    Outcome.InTurn (paths.map (fileOutcome files options))
      (.ofOutput (filesOutput files options paths).1 (filesOutput files options paths).2) := by
  -- From the front: a file that fails ends the run, and behind any other one the run goes on
  -- as it would without that file.
  induction paths with
  | nil => contradiction
  | cons path paths ih =>
      by_cases hlast : paths = []
      · rw [hlast, ofOutput_filesOutput_singleton]
        exact Outcome.inTurn_singleton _
      · rw [List.map_cons]
        cases hfile : fileOutput files options path with
        | error error =>
            have houtcome : fileOutcome files options path = .ofOutput [] (some error) := by
              rw [fileOutcome, hfile]
            have hrun : filesOutput files options (path :: paths) = ([], some error) := by
              rw [filesOutput, hfile]
            rw [houtcome, hrun]
            exact Outcome.inTurn_of_failure _ Nat.one_ne_zero
        | ok output =>
            have houtcome : fileOutcome files options path = .ofOutput output none := by
              rw [fileOutcome, hfile]
            have hrun : filesOutput files options (path :: paths) =
                (output ++ (filesOutput files options paths).1,
                  (filesOutput files options paths).2) := by
              rw [filesOutput, hfile]
            have hfirst : (Outcome.ofOutput output none).exitCode = 0 := rfl
            have hcons := (ih hlast).cons hfirst
            rw [houtcome, hrun]
            cases herror : (filesOutput files options paths).2 with
            | none =>
                rw [herror] at hcons
                exact hcons
            | some error =>
                rw [herror] at hcons
                exact hcons

theorem runOptions_of_files (hhelp : options.help = false) (hfiles : options.files ≠ []) :
    runOptions files options =
      .ofOutput (filesOutput files options (options.files.map (Path.join options.directory))).1
        (filesOutput files options (options.files.map (Path.join options.directory))).2 := by
  have hpaths : makefilePaths files options =
      .ok (options.files.map (Path.join options.directory)) := by
    rw [makefilePaths, if_neg (by simpa using hfiles)]
  rw [runOptions, hhelp, if_neg Bool.false_ne_true, hpaths]

theorem run_of_namesOnly {name : Text} {words : List Text} (hhelp : options.help = false)
    (hwords : options.NamesOnly name words) :
    run files words = fileOutcome files options (Path.join options.directory name) := by
  have hhelp' : ({ options with files := [name] } : Options).help = false := hhelp
  rw [run_of_ofWords? files hwords, runOptions_of_files hhelp' (List.cons_ne_nil _ _),
    filesOutput_with_files]
  exact ofOutput_filesOutput_singleton files options _

theorem map_run_of_namesOnly {names : List Text} {alone : List (List Text)}
    (hhelp : options.help = false) (halone : List.Forall₂ options.NamesOnly names alone) :
    alone.map (run files) =
      (names.map (Path.join options.directory)).map (fileOutcome files options) := by
  induction halone with
  | nil => rfl
  | cons hwords _ ih =>
      rw [List.map_cons, run_of_namesOnly hhelp hwords, ih]
      rfl

theorem exists_forall₂_namesOnly (hhelp : options.help = false) (names : List Text) :
    ∃ alone, List.Forall₂ options.NamesOnly names alone := by
  induction names with
  | nil => exact ⟨[], .nil⟩
  | cons name names ih =>
      rcases ih with ⟨alone, halone⟩
      rcases options.exists_namesOnly hhelp name with ⟨words, hwords⟩
      exact ⟨words :: alone, .cons hwords halone⟩

/-- A run on files that are named comes to the runs on each of them alone, in their order up
to the first that fails, with any command lines that give the same options and one file. -/
theorem run_of_files (files : FileSystem) {words : List Text} {options : Options}
    (hwords : Options.ofWords? words = .ok options) (hhelp : options.help = false)
    (hfiles : options.files ≠ []) :
    (∃ alone, List.Forall₂ options.NamesOnly options.files alone) ∧
      ∀ alone, List.Forall₂ options.NamesOnly options.files alone →
        Outcome.InTurn (alone.map (run files)) (run files words) := by
  constructor
  · exact exists_forall₂_namesOnly hhelp options.files
  · intro alone halone
    rw [map_run_of_namesOnly hhelp halone, run_of_ofWords? files hwords,
      runOptions_of_files hhelp hfiles]
    exact inTurn_filesOutput files options (by simpa using hfiles)

/-- A tree with two makefiles of three that the run below names. -/
def gappedTree : FileTree :=
  (FileTree.empty.addFile "a.mk".toList "A = 1\nall:\n\tcc $(A) $(B)\n".toUTF8).addFile
    "b.mk".toList "all:\n".toUTF8

theorem run_of_files_second_missing :
    Outcome.InTurn
        [run gappedTree.fileSystem ["-tall".toList, "-DB=2".toList, "a.mk".toList],
          run gappedTree.fileSystem ["no.mk".toList, "-DB=2".toList, "-tall".toList],
          run gappedTree.fileSystem ["-DB=2".toList, "-t".toList, "all".toList, "b.mk".toList]]
        (run gappedTree.fileSystem ["-tall".toList, "a.mk".toList, "no.mk".toList,
          "-DB=2".toList, "b.mk".toList]) ∧
      (run gappedTree.fileSystem ["-tall".toList, "a.mk".toList, "no.mk".toList,
        "-DB=2".toList, "b.mk".toList]).output = "make all A=1 B=2\n".toList := by
  let options : Options := ⟨['.'], some "all".toList, ["B=2".toList],
    false, ["a.mk".toList, "no.mk".toList, "b.mk".toList]⟩
  have hwords : Options.ofWords? ["-tall".toList, "a.mk".toList, "no.mk".toList,
      "-DB=2".toList, "b.mk".toList] = .ok options := by rfl
  have halone : List.Forall₂ options.NamesOnly options.files
      [["-tall".toList, "-DB=2".toList, "a.mk".toList],
        ["no.mk".toList, "-DB=2".toList, "-tall".toList],
        ["-DB=2".toList, "-t".toList, "all".toList, "b.mk".toList]] :=
    .cons (by rfl) (.cons (by rfl) (.cons (by rfl) .nil))
  have hruns := (run_of_files gappedTree.fileSystem hwords rfl (List.cons_ne_nil _ _)).2 _ halone
  simp only [List.map_cons, List.map_nil] at hruns
  constructor
  · exact hruns
  · decide +kernel

end MakeOutline.CommandLine
