import MakeOutline.CommandLine.Run
import MakeOutline.FileTree
import MakeOutline.Proofs.LineEnds
import MakeOutline.Proofs.Overrides
import MakeOutline.Proofs.SelfDelimiting
import MakeOutline.Proofs.WellFormed

/-!
# Runs that ask for a target

A run that names a target prints one invocation, or nothing at all.  First the target has
to be there, and then every definition has to have a name.  What the invocation sets are
the makefile's own values for what the target requires, overridden by the definitions.
-/

namespace MakeOutline

namespace Text

theorem splitAtFirst?_eq (c : Char) (t : Text) :
    t.splitAtFirst? c =
      if t.contains c then some (t.takeWhile (· != c), (t.dropWhile (· != c)).tail) else none := by
  unfold splitAtFirst?
  by_cases hmem : c ∈ t
  · have hrest : t.dropWhile (· != c) ≠ [] := by
      intro hnil
      have hother := List.dropWhile_eq_nil_iff.mp hnil c hmem
      simp at hother
    obtain ⟨d, rest, hcons⟩ := List.exists_cons_of_ne_nil hrest
    rw [hcons, if_pos (List.contains_iff_mem.mpr hmem)]
    rfl
  · have hnil : t.dropWhile (· != c) = [] := by
      apply List.dropWhile_eq_nil_iff.mpr
      intro d hd
      exact bne_iff_ne.mpr (ne_of_mem_of_not_mem hd hmem)
    rw [hnil, if_neg (mt List.contains_iff_mem.mp hmem)]

theorem isEmpty_takeWhile_ne (c : Char) (t : Text) (hmem : t.contains c = true) :
    (t.takeWhile (· != c)).isEmpty = (t.head? == some c) := by
  cases t with
  | nil => simp at hmem
  | cons d t =>
      rw [List.takeWhile_cons, List.head?_cons]
      by_cases hd : d = c
      · simp [hd]
      · simp [hd]

end Text

/-! ## What an invocation prints -/

namespace Invocation

theorem unlessBlank?_of_trimmed {value : Text} (hvalue : value.Trimmed) :
    unlessBlank? value = if value.isEmpty then none else some value := by
  rw [unlessBlank?, hvalue.trim_eq]

def argumentText (argument : Text × Text) : Text :=
  ' ' :: (argument.1 ++ '=' :: argument.2)

theorem words_eq (invocation : Invocation) :
    invocation.words =
      "make".toList :: invocation.target ::
        invocation.arguments.map fun argument => argument.1 ++ '=' :: argument.2 := by
  rw [words]
  congr 2
  apply List.map_congr_left
  intro argument _
  exact List.append_assoc _ _ _

theorem rendered_eq (invocation : Invocation) :
    invocation.rendered =
      "make ".toList ++ invocation.target ++ invocation.arguments.flatMap argumentText := by
  have hjoined : [' '] ++ Text.joinedBy [' '] invocation.words =
      invocation.words.flatMap ([' '] ++ ·) :=
    Text.append_joinedBy [' '] (List.cons_ne_nil _ _)
  have harguments : (invocation.arguments.map fun argument =>
      argument.1 ++ '=' :: argument.2).flatMap ([' '] ++ ·) =
        invocation.arguments.flatMap argumentText :=
    List.flatMap_map _ _ _
  rw [rendered, words_eq]
  rw [words_eq, List.flatMap_cons, List.flatMap_cons, harguments] at hjoined
  exact List.append_cancel_left hjoined

end Invocation

/-! ## The makefile's own values -/

namespace Makefile

theorem exists_wellFormed_of_ofFile {files : FileSystem} {path : Text} {makefile : Makefile}
    (hfile : ofFile files path = .ok makefile) :
    ∃ lineCount, makefile.WellFormed lineCount := by
  unfold ofFile at hfile
  split at hfile
  next bytes _ =>
    unfold ofBytes at hfile
    split at hfile
    next t _ =>
      obtain rfl := Except.ok.inj hfile
      exact ⟨_, wellFormed_of_targets_eq rfl (Extraction.wellFormed_tableOf _)⟩
    next => contradiction
  next => contradiction

/-- The values that the makefile gives to what the target requires, where they are not empty. -/
def ownValues (makefile : Makefile) (target : Target) : List (Text × Text) :=
  target.required.filterMap fun name =>
    ((makefile.table.get? name).filter fun value => !value.isEmpty).map (name, ·)

theorem arguments_prefilled {makefile : Makefile} {lineCount : Nat}
    (hmakefile : makefile.WellFormed lineCount) {target : Target}
    (hmem : target ∈ makefile.targets) :
    (Invocation.prefilled target makefile.table).arguments = makefile.ownValues target := by
  rw [Invocation.arguments_prefilled makefile.table (hmakefile.target target hmem).required_nodup]
  apply List.filterMap_congr
  intro name _
  cases hget : makefile.table.get? name with
  | none => rfl
  | some value =>
      have hentry : (name, value) ∈ makefile.table.toList :=
        Variables.mem_toList_iff.mpr hget
      have htrimmed := hmakefile.table.value (name, value) hentry
      rw [Option.bind_some, Invocation.unlessBlank?_of_trimmed htrimmed, Option.filter_some]
      cases value.isEmpty <;> rfl

end Makefile

namespace CommandLine

/-! ## Definitions -/

/-- The word has no equals sign, or nothing in front of its first one. -/
def isMalformed (word : Text) : Bool := !word.contains '=' || word.head? == some '='

/-- What stands in front of the first equals sign and what stands behind it. -/
def nameAndValue (word : Text) : Text × Text :=
  (word.takeWhile (· != '='), (word.dropWhile (· != '=')).tail)

theorem define_cons (invocation : Invocation) (word : Text) (words : List Text) :
    define invocation (word :: words) =
      if isMalformed word then .error (.malformedDefinition word)
      else define (invocation.set (nameAndValue word).1 (nameAndValue word).2) words := by
  rw [define, Text.splitAtFirst?_eq, isMalformed]
  cases hmem : word.contains '=' with
  | false => rfl
  | true =>
      simp only [if_true, Bool.not_true, Bool.false_or, Text.isEmpty_takeWhile_ne '=' word hmem]
      rfl

/-- The first malformed definition decides.  If there is none, they are settings. -/
theorem define_eq (invocation : Invocation) (words : List Text) :
    define invocation words =
      match words.find? isMalformed with
      | some word => .error (.malformedDefinition word)
      | none => .ok (invocation.setAll (words.map nameAndValue)) := by
  induction words generalizing invocation with
  | nil => rfl
  | cons word words ih =>
      rw [define_cons, List.find?_cons]
      cases isMalformed word with
      | true => rfl
      | false =>
          rw [if_neg Bool.false_ne_true, ih]
          rfl

/-! ## Runs -/

theorem makefileOutput_of_target {options : Options} {name : Text} {makefile : Makefile}
    {lineCount : Nat} (htarget : options.target? = some name)
    (hmakefile : makefile.WellFormed lineCount) :
    makefileOutput options makefile =
      match makefile.target? name with
      | none => .error (.failure (.unknownTarget name))
      | some target =>
        match options.defines.find? isMalformed with
        | some word => .error (.malformedDefinition word)
        | none =>
          .ok ("make ".toList ++ name ++
            (Invocation.overridden (makefile.ownValues target)
              (options.defines.map nameAndValue)).flatMap Invocation.argumentText ++ ['\n']) := by
  simp only [makefileOutput, htarget, Makefile.invocation]
  cases htarget? : makefile.target? name with
  | none => rfl
  | some target =>
      have hmem : target ∈ makefile.targets := List.mem_of_find?_eq_some htarget?
      have hname : target.name = name := by
        have hfound := List.find?_some htarget?
        simpa using hfound
      have hnodup := Invocation.nodup_arguments_prefilled target makefile.table
      simp only [define_eq]
      cases options.defines.find? isMalformed with
      | some word => rfl
      | none =>
          simp only [Invocation.rendered_eq, Invocation.target_setAll,
            Invocation.target_prefilled, hname, Invocation.arguments_setAll _ hnodup,
            Makefile.arguments_prefilled hmakefile hmem]

theorem run_of_makefilePaths_singleton {files : FileSystem} {words : List Text}
    {options : Options} {path : Text} {makefile : Makefile}
    (hwords : Options.ofWords? words = .ok options) (hhelp : options.help = false)
    (hpaths : makefilePaths files options = .ok [path])
    (hfile : Makefile.ofFile files path = .ok makefile) :
    run files words =
      match makefileOutput options makefile with
      | .ok output => ⟨output, [], 0⟩
      | .error error => .ofOutput [] (some error) := by
  rw [run, hwords]
  simp only [runOptions, hhelp, if_neg Bool.false_ne_true, hpaths, filesOutput, fileOutput, hfile]
  cases makefileOutput options makefile with
  | ok output =>
      simp only [List.append_nil]
      rfl
  | error error => rfl

/-- A run for a target of one makefile prints an invocation or fails with nothing printed:
because the target is unknown, whatever the definitions are, or else because of the first
definition that is malformed. -/
theorem run_of_target {files : FileSystem} {words : List Text} {options : Options}
    {name path : Text} {makefile : Makefile} (hwords : Options.ofWords? words = .ok options)
    (hhelp : options.help = false) (htarget : options.target? = some name)
    (hpaths : makefilePaths files options = .ok [path])
    (hfile : Makefile.ofFile files path = .ok makefile) :
    run files words =
      match makefile.target? name with
      | none =>
        ⟨[], "Error: ".toList ++ (Failure.unknownTarget name).report ++ ['\n'], 1⟩
      | some target =>
        match options.defines.find? isMalformed with
        | some word =>
          ⟨[], "Error: ".toList ++
            RunError.messageReport ("expected NAME=VALUE, got ".toList ++ word.quoted) ++
              ['\n'], 1⟩
        | none =>
          ⟨"make ".toList ++ name ++
            (Invocation.overridden (makefile.ownValues target)
              (options.defines.map nameAndValue)).flatMap Invocation.argumentText ++ ['\n'],
            [], 0⟩ := by
  obtain ⟨lineCount, hmakefile⟩ := Makefile.exists_wellFormed_of_ofFile hfile
  rw [run_of_makefilePaths_singleton hwords hhelp hpaths hfile,
    makefileOutput_of_target htarget hmakefile]
  cases makefile.target? name with
  | none => rfl
  | some target =>
      dsimp only
      cases options.defines.find? isMalformed with
      | some word => rfl
      | none => rfl

def overriddenText : Text := "A=1\nB=2\nall:\n\techo $(A) $(B) $(C)\n".toList

/-- A value that is taken away and set again comes last. -/
theorem run_of_target_set_again :
    run (FileTree.empty.addFile "Makefile".toList overriddenText.utf8Encode).fileSystem
        ["-tall".toList, "-D".toList, "A=".toList, "-D".toList, "C=x".toList, "-D".toList,
          "A= 3 ".toList] =
      ⟨"make all B=2 C=x A=3\n".toList, [], 0⟩ := by
  let files := (FileTree.empty.addFile "Makefile".toList overriddenText.utf8Encode).fileSystem
  let options : Options :=
    ⟨['.'], some "all".toList, ["A=".toList, "C=x".toList, "A= 3 ".toList], false, []⟩
  have hpaths : makefilePaths files options = .ok ["./Makefile".toList] := by rfl
  have hcontents : files.contents "./Makefile".toList = .ok overriddenText.utf8Encode := by rfl
  have hfile : Makefile.ofFile files "./Makefile".toList =
      .ok (Makefile.ofText overriddenText) := by
    simp only [Makefile.ofFile, hcontents, Makefile.ofBytes, Text.ofUtf8?_utf8Encode]
  have hwords : Options.ofWords? ["-tall".toList, "-D".toList, "A=".toList, "-D".toList,
      "C=x".toList, "-D".toList, "A= 3 ".toList] = .ok options := by rfl
  refine (run_of_target hwords (by rfl) (by rfl) hpaths hfile).trans ?_
  decide +kernel

end CommandLine

end MakeOutline
