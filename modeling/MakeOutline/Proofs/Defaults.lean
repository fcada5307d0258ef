import MakeOutline.Proofs.Listing
import MakeOutline.Proofs.TargetRuns

/-!
# Defaults

The arguments that an invocation starts with are the makefile's own values for what the
target requires.  Since no name is required twice, setting one of them after the other never
touches an earlier one, so nothing but the blank values is left out.  The values in a table
of a makefile have no blanks at their ends, so the listing shows the same values, and shows
one of them as empty just when the invocation leaves it out.
-/

namespace MakeOutline

/-- The variables that the listing shows with a default that is not empty. -/
def CommandLine.Entry.defaults (entry : Entry) : List (Text × Text) :=
  entry.required.filterMap fun required =>
    (required.2.filter fun value => !value.isEmpty).map (required.1, ·)

namespace Makefile

open CommandLine (Entry entries listing)
open Invocation (unlessBlank?)

theorem defaults_ofTarget (makefile : Makefile) (target : Target) :
    (Entry.ofTarget makefile.table target).defaults = makefile.ownValues target := by
  rw [Entry.defaults, Entry.ofTarget, List.filterMap_map]
  rfl

theorem mem_entries_iff {makefile : Makefile} {entry : Entry} :
    entry ∈ entries makefile ↔
      ∃ target ∈ makefile.targets, Entry.ofTarget makefile.table target = entry :=
  List.mem_map

theorem target?_eq_none_iff {makefile : Makefile} {name : Text} :
    makefile.target? name = none ↔ ∀ entry ∈ entries makefile, entry.name ≠ name := by
  rw [target?, List.find?_eq_none]
  constructor
  · intro hnone entry hentry
    rcases mem_entries_iff.mp hentry with ⟨target, hmem, rfl⟩
    have hname : ¬ target.name = name := by simpa using hnone target hmem
    exact hname
  · intro hentries target hmem
    have hname : ¬ target.name = name := hentries _ (mem_entries_iff.mpr ⟨target, hmem, rfl⟩)
    simpa using hname

theorem invocation_eq_error_iff {makefile : Makefile} {name : Text} {failure : Failure} :
    makefile.invocation name = .error failure ↔
      failure = .unknownTarget name ∧ ∀ entry ∈ entries makefile, entry.name ≠ name := by
  rw [← target?_eq_none_iff, invocation]
  cases makefile.target? name with
  | none => simp [eq_comm]
  | some target => simp

theorem invocation_of_target? {makefile : Makefile} {name : Text} {target : Target}
    (htarget : makefile.target? name = some target) :
    makefile.invocation name = .ok (.prefilled target makefile.table) := by
  rw [invocation, htarget]

/-- The invocation of a listed target sets the defaults that are listed for it. -/
theorem invocation_of_mem {makefile : Makefile} {lineCount : Nat}
    (hmakefile : makefile.WellFormed lineCount) {target : Target}
    (hmem : target ∈ makefile.targets) :
    makefile.invocation target.name =
      .ok ⟨target.name, (Entry.ofTarget makefile.table target).defaults⟩ := by
  have htarget := Invocation.target_prefilled target makefile.table
  have harguments := arguments_prefilled hmakefile hmem
  rw [invocation_of_target? (hmakefile.target? target hmem), defaults_ofTarget, ← harguments,
    ← htarget]

theorem invocation_eq_ok_iff {makefile : Makefile} {lineCount : Nat}
    (hmakefile : makefile.WellFormed lineCount) {name : Text} {result : Invocation} :
    makefile.invocation name = .ok result ↔
      ∃ entry ∈ entries makefile, entry.name = name ∧ result = ⟨name, entry.defaults⟩ := by
  constructor
  · intro hresult
    cases htarget : makefile.target? name with
    | none =>
        rw [invocation, htarget] at hresult
        contradiction
    | some target =>
        have hmem : target ∈ makefile.targets := List.mem_of_find?_eq_some htarget
        have hname : target.name = name := by
          have hfound := List.find?_some htarget
          simpa using hfound
        rw [← hname, invocation_of_mem hmakefile hmem] at hresult
        exact ⟨_, mem_entries_iff.mpr ⟨target, hmem, rfl⟩, hname,
          hname ▸ (Except.ok.inj hresult).symm⟩
  · rintro ⟨entry, hentry, rfl, rfl⟩
    rcases mem_entries_iff.mp hentry with ⟨target, hmem, rfl⟩
    exact invocation_of_mem hmakefile hmem

/-- What the targets of a makefile start with, whatever the table is that they are given, and
what the makefile's own listing tells of it. -/
structure GivesDefaults (makefile : Makefile) : Prop where
  prefilled : ∀ target ∈ makefile.targets, ∀ table : Variables,
    (Invocation.prefilled target table).arguments =
      target.required.filterMap fun name =>
        ((table.get? name).bind unlessBlank?).map (name, ·)
  listed : listing makefile = (entries makefile).flatMap Entry.text
  unknown : ∀ name failure, makefile.invocation name = .error failure ↔
    failure = .unknownTarget name ∧ ∀ entry ∈ entries makefile, entry.name ≠ name
  known : ∀ name result, makefile.invocation name = .ok result ↔
    ∃ entry ∈ entries makefile, entry.name = name ∧ result = ⟨name, entry.defaults⟩

theorem ofLines_givesDefaults (lines : List Text) : (ofLines lines).GivesDefaults := by
  have hmakefile : (ofLines lines).WellFormed lines.length :=
    wellFormed_of_targets_eq rfl (Extraction.wellFormed_tableOf lines)
  constructor
  · intro target hmem table
    exact Invocation.arguments_prefilled table (hmakefile.target target hmem).required_nodup
  · exact CommandLine.listing_eq_flatMap (ofLines lines)
  · intro name failure
    exact invocation_eq_error_iff
  · intro name result
    exact invocation_eq_ok_iff hmakefile

example : (ofLines ["A = x".toList, "B =".toList, "all:".toList,
    "\t$(C) $(B) $(A)".toList]).invocation "all".toList =
      .ok ⟨"all".toList, [("A".toList, "x".toList)]⟩ := by
  decide +kernel

end Makefile

end MakeOutline
