import MakeOutline.Proofs.Overrides
import MakeOutline.Proofs.WellFormed

/-!
# Arguments in order

A row of settings as it is seen from outside, by asking after each of them which names
have a value.  A name that had one from the start and never lost it keeps its place.  Any
other name stands where the setting put it that last gave it a value when it had none.
What each name is set to hangs on the last setting of that name alone.
-/

namespace MakeOutline.Invocation

/-! ## No name twice, no blank values -/

structure WellFormed (invocation : Invocation) : Prop where
  nodup : (invocation.arguments.map Prod.fst).Nodup
  values : ∀ argument ∈ invocation.arguments, argument.2 ≠ [] ∧ argument.2.Trimmed

theorem mem_of_mem_putArgument {name value : Text} {argument : Text × Text}
    {arguments : List (Text × Text)} (hmem : argument ∈ putArgument name value arguments) :
    argument = (name, value) ∨ argument ∈ arguments := by
  induction arguments with
  | nil => exact .inl (List.mem_singleton.mp hmem)
  | cons first arguments ih =>
      rw [putArgument] at hmem
      split at hmem
      next =>
        exact (List.mem_cons.mp hmem).imp_right (List.mem_cons_of_mem first)
      next =>
        rcases List.mem_cons.mp hmem with rfl | htail
        · exact .inr List.mem_cons_self
        · exact (ih htail).imp_right (List.mem_cons_of_mem first)

theorem wellFormed_ofTarget (target : Target) : (ofTarget target).WellFormed :=
  ⟨List.nodup_nil, fun _ hmem => absurd hmem List.not_mem_nil⟩

theorem WellFormed.set {invocation : Invocation} (hinvocation : invocation.WellFormed)
    (name value : Text) : (invocation.set name value).WellFormed := by
  refine ⟨nodup_set name value hinvocation.nodup, ?_⟩
  intro argument hmem
  rw [Invocation.set] at hmem
  simp only at hmem
  split at hmem
  next => exact hinvocation.values argument (List.mem_filter.mp hmem).1
  next hvalue =>
    rcases mem_of_mem_putArgument hmem with rfl | hold
    · exact ⟨by simpa using hvalue, Text.trimmed_trim value⟩
    · exact hinvocation.values argument hold

theorem WellFormed.setAll {invocation : Invocation} (hinvocation : invocation.WellFormed)
    (settings : List (Text × Text)) : (invocation.setAll settings).WellFormed := by
  induction settings using List.reverseRecOn with
  | nil => exact hinvocation
  | append_singleton settings setting ih =>
      rw [setAll_append_singleton]
      exact ih.set _ _

theorem wellFormed_prefilled (target : Target) (table : Variables) :
    (prefilled target table).WellFormed := by
  rw [prefilled_eq_setAll]
  exact (wellFormed_ofTarget target).setAll _

/-! ## Names that have a value all along -/

/-- The invocation when the first `i` of the settings are made. -/
def after (start : Invocation) (settings : List (Text × Text)) (i : Nat) : Invocation :=
  start.setAll (settings.take i)

/-- The name has a value after `i` settings, and from there on to the last. -/
def HeldFrom (start : Invocation) (settings : List (Text × Text)) (i : Nat) (name : Text) :
    Prop :=
  ∀ j, i ≤ j → j ≤ settings.length → ((start.after settings j).get? name).isSome

/-- The setting at place `i` takes the name from having no value to having one, which it has
from there on. -/
structure LastIntroducedAt (start : Invocation) (settings : List (Text × Text)) (i : Nat)
    (name : Text) : Prop where
  lt : i < settings.length
  absent : (start.after settings i).get? name = none
  held : start.HeldFrom settings (i + 1) name

section

variable {start : Invocation} {settings : List (Text × Text)} {name : Text} {i : Nat}

theorem get?_after (start : Invocation) (settings : List (Text × Text)) (j : Nat)
    (name : Text) :
    (start.after settings j).get? name = valueAfter? start.arguments (settings.take j) name :=
  lookup_setAll start (settings.take j) name

/-- A name that is taken away is left without a value at that moment. -/
theorem not_heldFrom_of_removes (hremoves : removes (settings.drop i) name = true) :
    ¬ start.HeldFrom settings (i + 1) name := by
  obtain ⟨⟨other, value⟩, hmem, htaken⟩ := List.any_eq_true.mp hremoves
  rw [Bool.and_eq_true, beq_iff_eq] at htaken
  obtain ⟨rfl, hvalue⟩ := htaken
  obtain ⟨k, hk⟩ := List.mem_iff_getElem?.mp hmem
  rw [List.getElem?_drop] at hk
  obtain ⟨hlt, hget⟩ := List.getElem?_eq_some_iff.mp hk
  intro hheld
  have hsome := hheld (i + k + 1) (by omega) (by omega)
  rw [get?_after, List.take_succ_eq_append_getElem hlt, hget, valueAfter?_append_singleton,
    if_pos rfl, unlessBlank?, if_pos hvalue] at hsome
  contradiction

theorem isSome_get?_after {j : Nat} (hij : i ≤ j)
    (hname : (valueAfter? start.arguments (settings.take i) name).isSome ∨
      name ∈ ((settings.drop i).take (j - i)).map Prod.fst)
    (hkept : removes (settings.drop i) name = false) :
    ((start.after settings j).get? name).isSome := by
  have htake : settings.take j = settings.take i ++ (settings.drop i).take (j - i) := by
    rw [← List.take_add, Nat.add_sub_of_le hij]
  have hkept' : removes ((settings.drop i).take (j - i)) name = false := by
    rw [← List.take_append_drop (j - i) (settings.drop i), removes_append,
      Bool.or_eq_false_iff] at hkept
    exact hkept.1
  rw [get?_after, htake]
  exact isSome_valueAfter?_append hname hkept'

theorem heldFrom_zero_iff :
    start.HeldFrom settings 0 name ↔
      name ∈ start.arguments.map Prod.fst ∧ removes settings name = false := by
  constructor
  · intro hheld
    constructor
    · exact isSome_lookup_iff.mp (hheld 0 (Nat.le_refl 0) (Nat.zero_le _))
    · by_contra hremoves
      have hnot : ¬ start.HeldFrom settings 1 name :=
        not_heldFrom_of_removes (i := 0) (by simpa using hremoves)
      exact hnot fun j _ => hheld j (Nat.zero_le j)
  · rintro ⟨hname, hkept⟩ j hj _
    exact isSome_get?_after hj (.inl (isSome_lookup_iff.mpr hname)) hkept

theorem introducedAt?_eq_some_iff :
    introducedAt? start.arguments settings i = some name ↔
      start.LastIntroducedAt settings i name := by
  rw [introducedAt?, Option.filter_eq_some_iff, Option.map_eq_some_iff, Bool.and_eq_true,
    Option.isNone_iff_eq_none, Bool.not_eq_true', ← get?_after]
  constructor
  · rintro ⟨⟨setting, hget, rfl⟩, habsent, hkept⟩
    obtain ⟨hlt, _⟩ := List.getElem?_eq_some_iff.mp hget
    refine ⟨hlt, habsent, ?_⟩
    intro j hj _
    refine isSome_get?_after (Nat.le_of_succ_le hj) (.inr (List.mem_map_of_mem ?_)) hkept
    apply List.mem_of_getElem? (i := 0)
    rw [List.getElem?_take_of_lt (by omega), List.getElem?_drop, Nat.add_zero, hget]
  · rintro ⟨hlt, habsent, hheld⟩
    have hpresent := hheld (i + 1) (Nat.le_refl _) hlt
    rw [get?_after, List.take_succ_eq_append_getElem hlt, valueAfter?_append_singleton,
      ← get?_after, habsent] at hpresent
    refine ⟨⟨settings[i], List.getElem?_eq_getElem hlt, ?_⟩, habsent, ?_⟩
    · by_contra hother
      rw [if_neg (Ne.symm hother)] at hpresent
      contradiction
    · by_contra hremoves
      exact not_heldFrom_of_removes (by simpa using hremoves) hheld

end

/-! ## What a row of settings comes to -/

/-- The settings, made one after the other, as one list of arguments in order. -/
structure Overrides (start : Invocation) (settings : List (Text × Text)) : Prop where
  wellFormed : (start.setAll settings).WellFormed
  get?_of_set : ∀ above name value below, settings = above ++ (name, value) :: below →
    name ∉ below.map Prod.fst → (start.setAll settings).get? name = unlessBlank? value
  get?_of_not_set : ∀ name, name ∉ settings.map Prod.fst →
    (start.setAll settings).get? name = start.get? name
  order : ∃ kept introduced,
    (start.setAll settings).arguments.map Prod.fst = kept ++ introduced ∧
    kept.Sublist (start.arguments.map Prod.fst) ∧
    (∀ name, name ∈ kept ↔ start.HeldFrom settings 0 name) ∧
    introduced.Pairwise (fun first second => ∃ i j, i < j ∧
      start.LastIntroducedAt settings i first ∧ start.LastIntroducedAt settings j second) ∧
    ∀ name, name ∈ introduced ↔ ∃ i, start.LastIntroducedAt settings i name
  target : (start.setAll settings).target = start.target

theorem get?_setAll_of_not_mem {name : Text} {settings : List (Text × Text)}
    (start : Invocation) (hname : name ∉ settings.map Prod.fst) :
    (start.setAll settings).get? name = start.get? name := by
  have hlast : lastSetting? settings name = none := by
    rw [lastSetting?, ← Option.not_isSome_iff_eq_none, isSome_lookup_iff, List.map_reverse,
      List.mem_reverse]
    exact hname
  rw [get?, lookup_setAll, valueAfter?, hlast, get?]

theorem get?_setAll_of_last {name : Text} {below : List (Text × Text)} (start : Invocation)
    (above : List (Text × Text)) (value : Text) (hname : name ∉ below.map Prod.fst) :
    (start.setAll (above ++ (name, value) :: below)).get? name = unlessBlank? value := by
  have hsplit : start.setAll (above ++ (name, value) :: below) =
      ((start.setAll above).set name value).setAll below := by
    rw [setAll, List.foldl_append]
    rfl
  rw [hsplit, get?_setAll_of_not_mem _ hname, get?, lookup_set, if_pos rfl]

theorem map_fst_arguments_setAll {start : Invocation} (settings : List (Text × Text))
    (hnodup : (start.arguments.map Prod.fst).Nodup) :
    (start.setAll settings).arguments.map Prod.fst =
      orderedNames start.arguments settings := by
  rw [arguments_setAll settings hnodup, overridden, List.map_filterMap]
  have hnamed : ∀ name ∈ orderedNames start.arguments settings,
      ((valueAfter? start.arguments settings name).map (name, ·)).map Prod.fst = some name := by
    intro name hmem
    obtain ⟨value, hvalue⟩ :=
      Option.isSome_iff_exists.mp (isSome_valueAfter?_of_mem_orderedNames hmem)
    rw [hvalue]
    rfl
  exact (List.filterMap_congr hnamed).trans List.filterMap_some

theorem WellFormed.overrides {start : Invocation} (hstart : start.WellFormed)
    (settings : List (Text × Text)) : Overrides start settings := by
  constructor
  · exact hstart.setAll settings
  · rintro above name value below rfl hname
    exact get?_setAll_of_last start above value hname
  · exact fun name => get?_setAll_of_not_mem start
  · refine ⟨_, _, map_fst_arguments_setAll settings hstart.nodup, List.filter_sublist, ?_, ?_, ?_⟩
    · intro name
      rw [heldFrom_zero_iff, List.mem_filter, Bool.not_eq_true']
    · rw [introducedNames, List.pairwise_filterMap]
      apply List.pairwise_lt_range.imp
      intro i j hij first hfirst second hsecond
      exact ⟨i, j, hij, introducedAt?_eq_some_iff.mp hfirst, introducedAt?_eq_some_iff.mp hsecond⟩
    · intro name
      rw [introducedNames, List.mem_filterMap]
      constructor
      · rintro ⟨i, _, hi⟩
        exact ⟨i, introducedAt?_eq_some_iff.mp hi⟩
      · rintro ⟨i, hi⟩
        exact ⟨i, List.mem_range.mpr hi.lt, introducedAt?_eq_some_iff.mpr hi⟩
  · exact target_setAll start settings

/-- Whether an invocation starts without arguments or with a makefile's own values. -/
theorem overrides_ofTarget_and_prefilled (target : Target) (table : Variables)
    (settings : List (Text × Text)) :
    Overrides (ofTarget target) settings ∧ Overrides (prefilled target table) settings := by
  constructor
  · exact (wellFormed_ofTarget target).overrides settings
  · exact (wellFormed_prefilled target table).overrides settings

end MakeOutline.Invocation
