import MakeOutline.Proofs.ArgumentOrder
import MakeOutline.Proofs.Defaults

/-!
# Words read back

The words of an invocation tell all of it.  Each word behind the target is cut at its first
equals sign, as the command line cuts a definition, and the pairs are set one after the
other.  The cut is the right one because no name holds an equals sign, whatever the values
hold.  Setting the pairs then drops, trims and moves nothing, because no name comes twice and
every value was trimmed when it was set.
-/

namespace MakeOutline

/-- A text is cut at its first separator, which is the one behind a part without separators. -/
theorem Text.splitAtFirst?_append_cons {c : Char} {part : Text} (rest : Text) (hpart : c ∉ part) :
    (part ++ c :: rest).splitAtFirst? c = some (part, rest) := by
  have hall : ∀ d ∈ part, (d != c) = true := by
    intro d hd
    exact bne_iff_ne.mpr (ne_of_mem_of_not_mem hd hpart)
  have hstop : ∀ d, (c :: rest).head? = some d → (d != c) = false := by
    rintro d ⟨rfl⟩
    exact bne_self_eq_false c
  rw [splitAtFirst?, dropWhile_append_of_head? hall hstop, takeWhile_append_of_head? hall hstop]

/-! ## Definitions as the command line reads them -/

namespace CommandLine

theorem equals_not_mem_nameAndValue (word : Text) : '=' ∉ (nameAndValue word).1 := by
  intro hmem
  have hchar := List.mem_takeWhile_imp hmem
  exact absurd hchar (by decide)

theorem nameAndValue_append_cons {name : Text} (value : Text) (hname : '=' ∉ name) :
    nameAndValue (name ++ '=' :: value) = (name, value) := by
  have hcut := Text.splitAtFirst?_append_cons value hname
  rw [Text.splitAtFirst?_eq, if_pos (by simp)] at hcut
  exact Option.some.inj hcut

theorem isMalformed_append_cons {name : Text} (value : Text) (hname : '=' ∉ name)
    (hne : name ≠ []) : isMalformed (name ++ '=' :: value) = false := by
  rcases List.exists_cons_of_ne_nil hne with ⟨c, more, rfl⟩
  rw [List.mem_cons, not_or] at hname
  simp [isMalformed, Ne.symm hname.1]

end CommandLine

namespace Invocation

/-! ## Names without an equals sign -/

/-- No name of an argument holds an equals sign. -/
def PlainNames (invocation : Invocation) : Prop :=
  ∀ argument ∈ invocation.arguments, '=' ∉ argument.1

theorem plainNames_ofTarget (target : Target) : (ofTarget target).PlainNames := by
  intro argument hmem
  exact absurd hmem List.not_mem_nil

theorem PlainNames.set {invocation : Invocation} {name : Text}
    (hinvocation : invocation.PlainNames) (value : Text) (hname : '=' ∉ name) :
    (invocation.set name value).PlainNames := by
  intro argument hmem
  rw [Invocation.set] at hmem
  simp only at hmem
  split at hmem
  next => exact hinvocation argument (List.mem_filter.mp hmem).1
  next =>
    rcases mem_of_mem_putArgument hmem with rfl | hold
    · exact hname
    · exact hinvocation argument hold

theorem PlainNames.setAll {invocation : Invocation} {settings : List (Text × Text)}
    (hinvocation : invocation.PlainNames) (hsettings : ∀ setting ∈ settings, '=' ∉ setting.1) :
    (invocation.setAll settings).PlainNames := by
  induction settings using List.reverseRecOn with
  | nil => exact hinvocation
  | append_singleton settings setting ih =>
      rw [setAll_append_singleton]
      apply PlainNames.set
      · apply ih
        intro other hother
        exact hsettings other (List.mem_append_left _ hother)
      · exact hsettings setting (List.mem_append_right _ (List.mem_singleton_self setting))

/-- What a target of a makefile requires are names of variables. -/
theorem plainNames_prefilled {target : Target} {lineCount : Nat}
    (htarget : target.WellFormed lineCount) (table : Variables) :
    (prefilled target table).PlainNames := by
  rw [prefilled_eq_setAll]
  apply (plainNames_ofTarget target).setAll
  intro setting hsetting hequals
  have hname : setting.1 ∈ target.required :=
    (map_fst_tableSettings_sublist table target.required).mem (List.mem_map_of_mem hsetting)
  have hchar : Header.isNameChar '=' = true :=
    VariableName.isNameChar_of_accepts (htarget.required setting.1 hname) '=' hequals
  exact absurd hchar (by decide)

/-! ## What can be reached -/

/-- The invocations of a target that settings lead to from no arguments or from a makefile's
own values.  As on the command line, no name that is set holds an equals sign. -/
inductive Reached (target : Target) : Invocation → Prop
  | ofTarget : Reached target (ofTarget target)
  | ofMakefile {lines : List Text} {name : Text} {start : Invocation}
      (htarget : (Makefile.ofLines lines).target? name = some target)
      (hstart : (Makefile.ofLines lines).invocation name = .ok start) : Reached target start
  | set {invocation : Invocation} {name : Text} (value : Text)
      (hreached : Reached target invocation) (hname : '=' ∉ name) :
      Reached target (invocation.set name value)

namespace Reached

variable {target : Target} {invocation : Invocation}

theorem target_eq (hreached : Reached target invocation) : invocation.target = target.name := by
  induction hreached with
  | ofTarget => rfl
  | ofMakefile htarget hstart =>
      rw [Makefile.invocation_of_target? htarget] at hstart
      rw [← Except.ok.inj hstart, target_prefilled]
  | set value _ _ ih => exact ih

theorem wellFormed (hreached : Reached target invocation) : invocation.WellFormed := by
  induction hreached with
  | ofTarget => exact wellFormed_ofTarget target
  | ofMakefile htarget hstart =>
      rw [Makefile.invocation_of_target? htarget] at hstart
      rw [← Except.ok.inj hstart]
      exact wellFormed_prefilled target _
  | set value _ _ ih => exact ih.set _ value

theorem plainNames (hreached : Reached target invocation) : invocation.PlainNames := by
  induction hreached with
  | ofTarget => exact plainNames_ofTarget target
  | @ofMakefile lines name start htarget hstart =>
      rw [Makefile.invocation_of_target? htarget] at hstart
      rw [← Except.ok.inj hstart]
      have hmem : target ∈ Extraction.targetsOf lines := List.mem_of_find?_eq_some htarget
      exact plainNames_prefilled (Extraction.wellFormed_of_mem_targetsOf hmem) _
  | set value _ hname ih => exact ih.set value hname

/-- Definitions of the command line lead to nothing else. -/
theorem define {result : Invocation} {words : List Text} (hreached : Reached target invocation)
    (hdefine : CommandLine.define invocation words = .ok result) : Reached target result := by
  induction words generalizing invocation with
  | nil =>
      rw [CommandLine.define] at hdefine
      exact Except.ok.inj hdefine ▸ hreached
  | cons word words ih =>
      rw [CommandLine.define_cons] at hdefine
      split at hdefine
      next => contradiction
      next =>
        have hname := CommandLine.equals_not_mem_nameAndValue word
        exact ih (hreached.set _ hname) hdefine

end Reached

/-! ## Reading the words back -/

theorem drop_words (invocation : Invocation) :
    invocation.words.drop 2 =
      invocation.arguments.map fun argument => argument.1 ++ '=' :: argument.2 := by
  rw [words_eq]
  rfl

theorem mapM_splitAtFirst?_map {arguments : List (Text × Text)}
    (hplain : ∀ argument ∈ arguments, '=' ∉ argument.1) :
    (arguments.map fun argument => argument.1 ++ '=' :: argument.2).mapM
      (Text.splitAtFirst? '=') = some arguments := by
  induction arguments with
  | nil => rfl
  | cons first arguments ih =>
      rw [List.forall_mem_cons] at hplain
      rw [List.map_cons, List.mapM_cons, Text.splitAtFirst?_append_cons first.2 hplain.1,
        ih hplain.2]
      rfl

theorem eq_of_parts {first second : Invocation} (htarget : first.target = second.target)
    (harguments : first.arguments = second.arguments) : first = second := by
  cases first
  cases second
  simp only [mk.injEq]
  exact ⟨htarget, harguments⟩

/-- Arguments that are set in their order are the same arguments again. -/
theorem WellFormed.setAll_arguments {invocation : Invocation} {target : Target}
    (hinvocation : invocation.WellFormed) (htarget : invocation.target = target.name) :
    (Invocation.ofTarget target).setAll invocation.arguments = invocation := by
  have harguments : ((Invocation.ofTarget target).setAll invocation.arguments).arguments =
      invocation.arguments := by
    rw [arguments_setAll_of_nodup target hinvocation.nodup]
    have hkept : ∀ argument ∈ invocation.arguments,
        (unlessBlank? argument.2).map (argument.1, ·) = some argument := by
      intro argument hmem
      rcases hinvocation.values argument hmem with ⟨hne, htrimmed⟩
      rw [unlessBlank?_of_trimmed htrimmed, if_neg (by simpa using hne)]
      rfl
    exact (List.filterMap_congr hkept).trans List.filterMap_some
  have hname : ((Invocation.ofTarget target).setAll invocation.arguments).target =
      invocation.target := by
    rw [target_setAll, htarget]
    rfl
  exact eq_of_parts hname harguments

/-- The words behind the target are definitions that the command line accepts, unless a name
is empty. -/
theorem WellFormed.define_words {invocation : Invocation} {target : Target}
    (hinvocation : invocation.WellFormed) (htarget : invocation.target = target.name)
    (hplain : invocation.PlainNames) (hne : ∀ argument ∈ invocation.arguments, argument.1 ≠ []) :
    CommandLine.define (Invocation.ofTarget target) (invocation.words.drop 2) =
      .ok invocation := by
  have haccepted : (invocation.words.drop 2).find? CommandLine.isMalformed = none := by
    rw [drop_words, List.find?_eq_none]
    intro word hword
    rcases List.mem_map.mp hword with ⟨argument, hmem, rfl⟩
    rw [CommandLine.isMalformed_append_cons argument.2 (hplain argument hmem) (hne argument hmem)]
    exact Bool.false_ne_true
  have hpairs : (invocation.words.drop 2).map CommandLine.nameAndValue = invocation.arguments := by
    rw [drop_words, List.map_map]
    have hpair : ∀ argument ∈ invocation.arguments,
        CommandLine.nameAndValue (argument.1 ++ '=' :: argument.2) = argument := by
      intro argument hmem
      exact CommandLine.nameAndValue_append_cons argument.2 (hplain argument hmem)
    exact (List.map_congr_left hpair).trans (List.map_id _)
  rw [CommandLine.define_eq, haccepted, hpairs, hinvocation.setAll_arguments htarget]

/-- What can be reached is told by its words.  They can be cut again, and what they are cut
into leads from no arguments to the same invocation, as the command line would read it too. -/
theorem exists_settings_of_words {target : Target} {invocation : Invocation}
    (hreached : Reached target invocation) :
    ∃ settings, (invocation.words.drop 2).mapM (Text.splitAtFirst? '=') = some settings ∧
      (ofTarget target).setAll settings = invocation ∧
      ((ofTarget target).setAll settings).words = invocation.words ∧
      ((ofTarget target).setAll settings).rendered = invocation.rendered ∧
      ((∀ argument ∈ invocation.arguments, argument.1 ≠ []) →
        CommandLine.define (ofTarget target) (invocation.words.drop 2) = .ok invocation) := by
  have hagain : (ofTarget target).setAll invocation.arguments = invocation :=
    hreached.wellFormed.setAll_arguments hreached.target_eq
  refine ⟨invocation.arguments, ?_, hagain, ?_, ?_, ?_⟩
  · rw [drop_words]
    exact mapM_splitAtFirst?_map hreached.plainNames
  · rw [hagain]
  · rw [hagain]
  · exact hreached.wellFormed.define_words hreached.target_eq hreached.plainNames

def equalsTarget : Target :=
  ⟨"all".toList, [], "cc -DX=1 -DY $(OUT)".toList, ["FLAGS".toList, "OUT".toList], 2⟩

/-- The values of this invocation hold equals signs, blanks and a newline. -/
def equalsInvocation : Invocation :=
  ⟨"all".toList, [("FLAGS".toList, "-DX=1 -DY".toList), ("OUT".toList, "a\n=b".toList)]⟩

theorem exists_settings_of_words_equals_in_values :
    Reached equalsTarget equalsInvocation ∧
      ∃ settings,
        ["FLAGS=-DX=1 -DY".toList, "OUT=a\n=b".toList].mapM (Text.splitAtFirst? '=') =
            some settings ∧
          (ofTarget equalsTarget).setAll settings = equalsInvocation := by
  let makefile := Makefile.ofLines
    ["FLAGS = -DX=1 -DY".toList, "all:".toList, "\tcc $(FLAGS) $(OUT)".toList]
  have htarget : makefile.target? "all".toList = some equalsTarget := by
    decide +kernel
  have hstart : Reached equalsTarget (prefilled equalsTarget makefile.table) :=
    .ofMakefile htarget (Makefile.invocation_of_target? htarget)
  have hdefine : CommandLine.define (prefilled equalsTarget makefile.table)
      ["OUT= a\n=b ".toList] = .ok equalsInvocation := by
    decide +kernel
  have hreached : Reached equalsTarget equalsInvocation := hstart.define hdefine
  rcases exists_settings_of_words hreached with ⟨settings, hcut, hagain, _⟩
  exact ⟨hreached, settings, hcut, hagain⟩

end Invocation

end MakeOutline
