import Mathlib.Data.List.Induction
import Mathlib.Data.List.Nodup
import MakeOutline.Invocation

/-!
# Overrides

What the arguments of an invocation are after a row of settings, told without the steps in
between.  The value of a name is the one that it was last set to.  The arguments that were
there at the start and were never taken away keep their places; behind them come the others,
in the order of the settings that last brought them in.
-/

namespace MakeOutline.Invocation

/-! ## What settings say -/

def setAll (invocation : Invocation) (settings : List (Text × Text)) : Invocation :=
  settings.foldl (fun invocation setting => invocation.set setting.1 setting.2) invocation

/-- The trimmed value, unless it is blank. -/
def unlessBlank? (value : Text) : Option Text :=
  if value.trim.isEmpty then none else some value.trim

/-- What the name was last set to. -/
def lastSetting? (settings : List (Text × Text)) (name : Text) : Option Text :=
  settings.reverse.lookup name

/-- Whether one of the settings takes the name away. -/
def removes (settings : List (Text × Text)) (name : Text) : Bool :=
  settings.any fun setting => setting.1 == name && setting.2.trim.isEmpty

/-- The value of the name once all the settings are made. -/
def valueAfter? (start settings : List (Text × Text)) (name : Text) : Option Text :=
  match lastSetting? settings name with
  | some value => unlessBlank? value
  | none => start.lookup name

/-- The name that the setting at this place brings in, if it is not taken away again. -/
def introducedAt? (start settings : List (Text × Text)) (i : Nat) : Option Text :=
  (settings[i]?.map (·.1)).filter fun name =>
    (valueAfter? start (settings.take i) name).isNone && !removes (settings.drop i) name

def introducedNames (start settings : List (Text × Text)) : List Text :=
  (List.range settings.length).filterMap (introducedAt? start settings)

/-- First the names that were there and are never taken away, then those that come in. -/
def orderedNames (start settings : List (Text × Text)) : List Text :=
  (start.map (·.1)).filter (fun name => !removes settings name) ++ introducedNames start settings

def overridden (start settings : List (Text × Text)) : List (Text × Text) :=
  (orderedNames start settings).filterMap fun name =>
    (valueAfter? start settings name).map (name, ·)

theorem setAll_append_singleton (invocation : Invocation) (settings : List (Text × Text))
    (name value : Text) :
    invocation.setAll (settings ++ [(name, value)]) =
      (invocation.setAll settings).set name value := by
  rw [setAll, List.foldl_append]
  rfl

theorem lastSetting?_append (first second : List (Text × Text)) (name : Text) :
    lastSetting? (first ++ second) name =
      (lastSetting? second name).or (lastSetting? first name) := by
  rw [lastSetting?, List.reverse_append, List.lookup_append]
  rfl

theorem removes_append (first second : List (Text × Text)) (name : Text) :
    removes (first ++ second) name = (removes first name || removes second name) :=
  List.any_append

theorem lookup_cons_eq (argument : Text × Text) (arguments : List (Text × Text)) (name : Text) :
    (argument :: arguments).lookup name =
      if name = argument.1 then some argument.2 else arguments.lookup name := by
  rw [List.lookup_cons]
  by_cases hname : name = argument.1
  · rw [if_pos hname, beq_iff_eq.mpr hname]
  · rw [if_neg hname, beq_eq_false_iff_ne.mpr hname]

theorem isSome_lookup_iff {arguments : List (Text × Text)} {name : Text} :
    (arguments.lookup name).isSome ↔ name ∈ arguments.map (·.1) := by
  simp [List.lookup_isSome_iff]

theorem valueAfter?_append_singleton (start settings : List (Text × Text))
    (name value other : Text) :
    valueAfter? start (settings ++ [(name, value)]) other =
      if other = name then unlessBlank? value else valueAfter? start settings other := by
  have hlast : lastSetting? [(name, value)] other =
      if other = name then some value else none :=
    lookup_cons_eq (name, value) [] other
  rw [valueAfter?, lastSetting?_append, hlast]
  by_cases hother : other = name
  · rw [if_pos hother, if_pos hother]
    rfl
  · rw [if_neg hother, if_neg hother]
    rfl

theorem isSome_unlessBlank? {value : Text} (hvalue : value.trim.isEmpty = false) :
    (unlessBlank? value).isSome := by
  rw [unlessBlank?, hvalue]
  rfl

/-- A name that is known, or that is set, has a value until it is taken away. -/
theorem isSome_valueAfter?_append {start first second : List (Text × Text)} {name : Text}
    (hname : (valueAfter? start first name).isSome ∨ name ∈ second.map (·.1))
    (hkept : removes second name = false) :
    (valueAfter? start (first ++ second) name).isSome := by
  induction second using List.reverseRecOn with
  | nil =>
      rw [List.append_nil]
      simpa using hname
  | append_singleton second setting ih =>
      obtain ⟨last, value⟩ := setting
      rw [removes_append, Bool.or_eq_false_iff] at hkept
      rw [← List.append_assoc, valueAfter?_append_singleton]
      split
      next hlast =>
        apply isSome_unlessBlank?
        simpa [removes, hlast] using hkept.2
      next hlast =>
        refine ih ?_ hkept.1
        simpa [hlast] using hname

theorem isSome_valueAfter?_of_mem_orderedNames {start settings : List (Text × Text)} {name : Text}
    (hmem : name ∈ orderedNames start settings) : (valueAfter? start settings name).isSome := by
  rcases List.mem_append.mp hmem with hkept | hintroduced
  · obtain ⟨hname, hremoves⟩ := List.mem_filter.mp hkept
    have hstart : (valueAfter? start [] name).isSome := isSome_lookup_iff.mpr hname
    exact isSome_valueAfter?_append (.inl hstart) (by simpa using hremoves)
  · obtain ⟨i, _, hi⟩ := List.mem_filterMap.mp hintroduced
    obtain ⟨hsetting, hremoves⟩ := Option.filter_eq_some_iff.mp hi
    obtain ⟨setting, hget, rfl⟩ := Option.map_eq_some_iff.mp hsetting
    rw [Bool.and_eq_true] at hremoves
    have hdrop : setting ∈ settings.drop i := by
      apply List.mem_of_getElem? (i := 0)
      rw [List.getElem?_drop, Nat.add_zero, hget]
    rw [← List.take_append_drop i settings]
    exact isSome_valueAfter?_append (.inr (List.mem_map_of_mem hdrop)) (by simpa using hremoves.2)

/-! ## The arguments of an invocation -/

theorem lookup_putArgument (name value : Text) (arguments : List (Text × Text)) (other : Text) :
    (putArgument name value arguments).lookup other =
      if other = name then some value else arguments.lookup other := by
  induction arguments with
  | nil => exact lookup_cons_eq (name, value) [] other
  | cons first arguments ih =>
      rw [putArgument]
      split
      next hfirst =>
        rw [lookup_cons_eq, lookup_cons_eq, hfirst]
        split <;> rfl
      next hfirst =>
        rw [lookup_cons_eq, lookup_cons_eq, ih]
        split
        next hother => rw [if_neg (hother ▸ hfirst)]
        next => rfl

theorem lookup_filter_ne (name : Text) (arguments : List (Text × Text)) (other : Text) :
    (arguments.filter (·.1 != name)).lookup other =
      if other = name then none else arguments.lookup other := by
  induction arguments with
  | nil => simp
  | cons first arguments ih =>
      rw [List.filter_cons, lookup_cons_eq]
      by_cases hfirst : first.1 = name
      · rw [if_neg (by simp [hfirst]), ih, hfirst]
        split <;> rfl
      · rw [if_pos (by simp [hfirst]), lookup_cons_eq, ih]
        split
        next hother => rw [if_neg (hother ▸ hfirst)]
        next => rfl

theorem putArgument_of_not_mem {name value : Text} {arguments : List (Text × Text)}
    (hmem : name ∉ arguments.map (·.1)) :
    putArgument name value arguments = arguments ++ [(name, value)] := by
  induction arguments with
  | nil => rfl
  | cons first arguments ih =>
      rw [List.map_cons, List.mem_cons, not_or] at hmem
      rw [putArgument, if_neg (Ne.symm hmem.1), ih hmem.2, List.cons_append]

theorem putArgument_of_mem {name value : Text} {arguments : List (Text × Text)}
    (hnodup : (arguments.map (·.1)).Nodup) (hmem : name ∈ arguments.map (·.1)) :
    putArgument name value arguments =
      arguments.map fun argument => if argument.1 = name then (name, value) else argument := by
  induction arguments with
  | nil => simp at hmem
  | cons first arguments ih =>
      rw [List.map_cons, List.nodup_cons] at hnodup
      rw [putArgument, List.map_cons]
      by_cases hfirst : first.1 = name
      · have hothers : arguments.map (fun argument =>
            if argument.1 = name then (name, value) else argument) = arguments.map id := by
          apply List.map_congr_left
          intro argument hargument
          apply if_neg
          intro hname
          exact hnodup.1 (hfirst ▸ hname ▸ List.mem_map_of_mem hargument)
        rw [if_pos hfirst, if_pos hfirst, hothers, List.map_id]
      · have hothers : name ∈ arguments.map (·.1) :=
          (List.mem_cons.mp hmem).resolve_left (Ne.symm hfirst)
        rw [if_neg hfirst, if_neg hfirst, ih hnodup.2 hothers]

theorem lookup_set (invocation : Invocation) (name value other : Text) :
    (invocation.set name value).arguments.lookup other =
      if other = name then unlessBlank? value else invocation.arguments.lookup other := by
  rw [set, unlessBlank?]
  split
  next => exact lookup_filter_ne name invocation.arguments other
  next => exact lookup_putArgument name value.trim invocation.arguments other

theorem map_fst_putArgument_of_mem {name : Text} (value : Text) {arguments : List (Text × Text)}
    (hnodup : (arguments.map (·.1)).Nodup) (hmem : name ∈ arguments.map (·.1)) :
    (putArgument name value arguments).map (·.1) = arguments.map (·.1) := by
  rw [putArgument_of_mem hnodup hmem, List.map_map]
  apply List.map_congr_left
  intro argument _
  simp only [Function.comp_apply]
  split
  next hname => exact hname.symm
  next => rfl

theorem nodup_set {invocation : Invocation} (name value : Text)
    (hnodup : (invocation.arguments.map (·.1)).Nodup) :
    ((invocation.set name value).arguments.map (·.1)).Nodup := by
  rw [set]
  split
  next => exact hnodup.sublist (List.filter_sublist.map _)
  next =>
    by_cases hmem : name ∈ invocation.arguments.map (·.1)
    · rw [map_fst_putArgument_of_mem _ hnodup hmem]
      exact hnodup
    · rw [putArgument_of_not_mem hmem, List.map_append]
      exact hnodup.append (List.nodup_singleton name) (by simpa using hmem)

/-- Setting a new name adds an argument or leaves all as they are. -/
theorem arguments_set_of_not_mem {invocation : Invocation} {name : Text} (value : Text)
    (hmem : name ∉ invocation.arguments.map (·.1)) :
    (invocation.set name value).arguments =
      invocation.arguments ++ ((unlessBlank? value).map (name, ·)).toList := by
  rw [set, unlessBlank?]
  split
  next =>
    rw [Option.map_none, Option.toList_none, List.append_nil]
    apply List.filter_eq_self.mpr
    intro argument hargument
    apply bne_iff_ne.mpr
    intro hname
    exact hmem (hname ▸ List.mem_map_of_mem hargument)
  next => exact putArgument_of_not_mem hmem

theorem nodup_setAll {invocation : Invocation} (settings : List (Text × Text))
    (hnodup : (invocation.arguments.map (·.1)).Nodup) :
    ((invocation.setAll settings).arguments.map (·.1)).Nodup := by
  induction settings using List.reverseRecOn with
  | nil => exact hnodup
  | append_singleton settings setting ih =>
      rw [setAll_append_singleton]
      exact nodup_set _ _ ih

theorem lookup_setAll (invocation : Invocation) (settings : List (Text × Text)) (name : Text) :
    (invocation.setAll settings).arguments.lookup name =
      valueAfter? invocation.arguments settings name := by
  induction settings using List.reverseRecOn with
  | nil => rfl
  | append_singleton settings setting ih =>
      rw [setAll_append_singleton, lookup_set, valueAfter?_append_singleton, ih]

/-! ## The order of the arguments -/

theorem filterMap_singleton {α β : Type} (f : α → Option β) (a : α) :
    [a].filterMap f = (f a).toList := by
  rw [List.filterMap_cons]
  cases f a <;> rfl

theorem introducedAt?_append_of_lt {start settings : List (Text × Text)} {i : Nat}
    (hi : i < settings.length) (setting : Text × Text) :
    introducedAt? start (settings ++ [setting]) i =
      (introducedAt? start settings i).filter fun name => !removes [setting] name := by
  rw [introducedAt?, introducedAt?, List.getElem?_append_left hi,
    List.take_append_of_le_length (Nat.le_of_lt hi),
    List.drop_append_of_le_length (Nat.le_of_lt hi), Option.filter_filter]
  congr 1
  funext name
  rw [removes_append, Bool.not_or, Bool.and_assoc]

theorem introducedAt?_append_length (start settings : List (Text × Text)) (setting : Text × Text) :
    introducedAt? start (settings ++ [setting]) settings.length =
      (some setting.1).filter fun name =>
        (valueAfter? start settings name).isNone && !removes [setting] name := by
  rw [introducedAt?, List.getElem?_concat_length, List.take_left, List.drop_left]
  rfl

theorem introducedNames_append_singleton (start settings : List (Text × Text))
    (setting : Text × Text) :
    introducedNames start (settings ++ [setting]) =
      (introducedNames start settings).filter (fun name => !removes [setting] name) ++
        ((some setting.1).filter fun name =>
          (valueAfter? start settings name).isNone && !removes [setting] name).toList := by
  rw [introducedNames, List.length_append, List.length_singleton, List.range_succ,
    List.filterMap_append, introducedNames, List.filter_filterMap]
  congr 1
  · apply List.filterMap_congr
    intro i hi
    exact introducedAt?_append_of_lt (List.mem_range.mp hi) setting
  · rw [filterMap_singleton, introducedAt?_append_length]

theorem orderedNames_append_singleton (start settings : List (Text × Text))
    (setting : Text × Text) :
    orderedNames start (settings ++ [setting]) =
      (orderedNames start settings).filter (fun name => !removes [setting] name) ++
        ((some setting.1).filter fun name =>
          (valueAfter? start settings name).isNone && !removes [setting] name).toList := by
  rw [orderedNames, introducedNames_append_singleton, orderedNames, List.filter_append,
    List.filter_filter, List.append_assoc]
  congr 2
  funext name
  rw [removes_append, Bool.not_or, Bool.and_comm]

theorem removes_singleton (setting : Text × Text) (name : Text) :
    removes [setting] name = (setting.1 == name && setting.2.trim.isEmpty) :=
  Bool.or_false _

/-- A setting to a blank value takes its name away. -/
theorem overridden_append_of_blank (start settings : List (Text × Text)) (name : Text)
    {value : Text} (hvalue : value.trim.isEmpty = true) :
    overridden start (settings ++ [(name, value)]) =
      (overridden start settings).filter (·.1 != name) := by
  have hnames : orderedNames start (settings ++ [(name, value)]) =
      (orderedNames start settings).filter (· != name) := by
    rw [orderedNames_append_singleton, Option.filter_some, if_neg (by simp [removes, hvalue]),
      Option.toList_none, List.append_nil]
    apply List.filter_congr
    intro other _
    rw [removes_singleton, hvalue, Bool.and_true, Bool.beq_comm]
    rfl
  rw [overridden, hnames, List.filterMap_filter, overridden, List.filter_filterMap]
  apply List.filterMap_congr
  intro other _
  rw [valueAfter?_append_singleton]
  cases valueAfter? start settings other with
  | none => by_cases hother : other = name <;> simp [hother]
  | some held =>
      rw [Option.map_some, Option.filter_some]
      by_cases hother : other = name <;> simp [hother]

theorem orderedNames_append_of_not_blank (start settings : List (Text × Text)) (name : Text)
    {value : Text} (hvalue : value.trim.isEmpty = false) :
    orderedNames start (settings ++ [(name, value)]) =
      orderedNames start settings ++
        if (valueAfter? start settings name).isNone then [name] else [] := by
  have hremoves : ∀ other, removes [(name, value)] other = false := by
    intro other
    rw [removes_singleton, hvalue, Bool.and_false]
  rw [orderedNames_append_singleton, Option.filter_some]
  simp only [hremoves, Bool.not_false, Bool.and_true, List.filter_true]
  congr 1
  split <;> rfl

theorem overridden_append_of_none {start settings : List (Text × Text)} {name value : Text}
    (hvalue : value.trim.isEmpty = false) (hname : valueAfter? start settings name = none) :
    overridden start (settings ++ [(name, value)]) =
      overridden start settings ++ [(name, value.trim)] := by
  rw [overridden, orderedNames_append_of_not_blank start settings name hvalue, hname,
    List.filterMap_append, overridden]
  congr 1
  · apply List.filterMap_congr
    intro other hother
    have hvalued := isSome_valueAfter?_of_mem_orderedNames hother
    rw [valueAfter?_append_singleton, if_neg]
    rintro rfl
    rw [hname] at hvalued
    contradiction
  · rw [Option.isNone_none, if_pos rfl, List.filterMap_cons, valueAfter?_append_singleton,
      if_pos rfl, unlessBlank?, hvalue]
    rfl

theorem overridden_append_of_isSome {start settings : List (Text × Text)} {name value : Text}
    (hvalue : value.trim.isEmpty = false) (hname : (valueAfter? start settings name).isSome) :
    overridden start (settings ++ [(name, value)]) =
      (overridden start settings).map fun argument =>
        if argument.1 = name then (name, value.trim) else argument := by
  have hnone : (valueAfter? start settings name).isNone = false := by
    rw [Option.isNone_eq_false_iff]
    exact hname
  rw [overridden, orderedNames_append_of_not_blank start settings name hvalue, hnone,
    if_neg Bool.false_ne_true, List.append_nil, overridden, List.map_filterMap]
  apply List.filterMap_congr
  intro other _
  rw [valueAfter?_append_singleton]
  by_cases hother : other = name
  · obtain ⟨held, hheld⟩ := Option.isSome_iff_exists.mp hname
    rw [if_pos hother, hother, hheld, unlessBlank?, hvalue]
    simp
  · rw [if_neg hother, Option.map_map]
    congr 1
    funext held
    exact (if_neg hother).symm

theorem lookup_of_mem {arguments : List (Text × Text)} {argument : Text × Text}
    (hnodup : (arguments.map (·.1)).Nodup) (hmem : argument ∈ arguments) :
    arguments.lookup argument.1 = some argument.2 := by
  induction arguments with
  | nil => simp at hmem
  | cons first arguments ih =>
      rw [List.map_cons, List.nodup_cons] at hnodup
      rw [lookup_cons_eq]
      rcases List.mem_cons.mp hmem with rfl | hothers
      · rw [if_pos rfl]
      · have hname : argument.1 ≠ first.1 := by
          intro hname
          exact hnodup.1 (hname ▸ List.mem_map_of_mem hothers)
        rw [if_neg hname, ih hnodup.2 hothers]

theorem overridden_nil {arguments : List (Text × Text)}
    (hnodup : (arguments.map (·.1)).Nodup) : overridden arguments [] = arguments := by
  have hnames : orderedNames arguments [] = arguments.map (·.1) := by
    rw [orderedNames, List.filter_eq_self.mpr (by simp [removes])]
    exact List.append_nil _
  rw [overridden, hnames, List.filterMap_map]
  have hsome : ∀ argument ∈ arguments,
      (valueAfter? arguments [] argument.1).map (argument.1, ·) = some argument := by
    intro argument hmem
    have hvalue : valueAfter? arguments [] argument.1 = some argument.2 :=
      lookup_of_mem hnodup hmem
    rw [hvalue]
    rfl
  exact (List.filterMap_congr hsome).trans List.filterMap_some

/-- Settings made one after the other change the arguments as they change them together. -/
theorem arguments_setAll {invocation : Invocation} (settings : List (Text × Text))
    (hnodup : (invocation.arguments.map (·.1)).Nodup) :
    (invocation.setAll settings).arguments = overridden invocation.arguments settings := by
  -- From the end: one setting more is one more `set`, and what it does to the names
  -- hangs on whether the settings before it left a value.
  induction settings using List.reverseRecOn with
  | nil => exact (overridden_nil hnodup).symm
  | append_singleton settings setting ih =>
      obtain ⟨name, value⟩ := setting
      have hlookup := lookup_setAll invocation settings name
      rw [setAll_append_singleton, set]
      cases hvalue : value.trim.isEmpty with
      | true =>
          rw [overridden_append_of_blank _ _ _ hvalue, ← ih]
          rfl
      | false =>
          cases hname : valueAfter? invocation.arguments settings name with
          | none =>
              rw [overridden_append_of_none hvalue hname, ← ih]
              apply putArgument_of_not_mem
              rw [← isSome_lookup_iff, hlookup, hname]
              exact Bool.false_ne_true
          | some held =>
              rw [overridden_append_of_isSome hvalue (by simp [hname]), ← ih]
              apply putArgument_of_mem (nodup_setAll settings hnodup)
              rw [← isSome_lookup_iff, hlookup, hname]
              rfl

example : overridden [(['A'], ['1']), (['B'], ['2'])]
      [(['A'], []), (['C'], ['x']), (['A'], [' ', '3'])] =
    [(['B'], ['2']), (['C'], ['x']), (['A'], ['3'])] := by
  decide

theorem target_setAll (invocation : Invocation) (settings : List (Text × Text)) :
    (invocation.setAll settings).target = invocation.target := by
  induction settings using List.reverseRecOn with
  | nil => rfl
  | append_singleton settings setting ih =>
      rw [setAll_append_singleton]
      exact ih

/-! ## The values that a table gives -/

/-- The names with their values in the table. -/
def tableSettings (table : Variables) (names : List Text) : List (Text × Text) :=
  names.filterMap fun name => (table.get? name).map (name, ·)

theorem prefilled_eq_setAll (target : Target) (table : Variables) :
    prefilled target table = (ofTarget target).setAll (tableSettings table target.required) := by
  rw [prefilled, setAll, tableSettings, List.foldl_filterMap]
  congr 1
  funext invocation name
  cases table.get? name <;> rfl

theorem target_prefilled (target : Target) (table : Variables) :
    (prefilled target table).target = target.name := by
  rw [prefilled_eq_setAll, target_setAll]
  rfl

theorem nodup_arguments_prefilled (target : Target) (table : Variables) :
    ((prefilled target table).arguments.map (·.1)).Nodup := by
  rw [prefilled_eq_setAll]
  exact nodup_setAll _ List.nodup_nil

theorem map_fst_tableSettings_sublist (table : Variables) (names : List Text) :
    ((tableSettings table names).map (·.1)).Sublist names := by
  induction names with
  | nil => exact List.nil_sublist []
  | cons name names ih =>
      rw [tableSettings, List.filterMap_cons]
      split
      next => exact ih.cons name
      next argument hargument =>
        obtain ⟨value, _, rfl⟩ := Option.map_eq_some_iff.mp hargument
        exact ih.cons_cons name

theorem arguments_setAll_of_nodup (target : Target) {settings : List (Text × Text)}
    (hnodup : (settings.map (·.1)).Nodup) :
    ((ofTarget target).setAll settings).arguments =
      settings.filterMap fun setting => (unlessBlank? setting.2).map (setting.1, ·) := by
  induction settings using List.reverseRecOn with
  | nil => rfl
  | append_singleton settings setting ih =>
      rw [List.map_append, List.nodup_append] at hnodup
      obtain ⟨hsettings, _, hdisjoint⟩ := hnodup
      have hnew : setting.1 ∉ ((ofTarget target).setAll settings).arguments.map (·.1) := by
        rw [ih hsettings]
        intro hmem
        obtain ⟨argument, hargument, hname⟩ := List.mem_map.mp hmem
        obtain ⟨other, hother, hvalue⟩ := List.mem_filterMap.mp hargument
        obtain ⟨value, _, rfl⟩ := Option.map_eq_some_iff.mp hvalue
        exact hdisjoint other.1 (List.mem_map_of_mem hother) setting.1
          (List.mem_singleton_self setting.1) hname
      rw [setAll_append_singleton, List.filterMap_append, filterMap_singleton, ← ih hsettings]
      exact arguments_set_of_not_mem setting.2 hnew

/-- The names that have a value in the table, unless that is blank. -/
theorem arguments_prefilled {target : Target} (table : Variables)
    (hnodup : target.required.Nodup) :
    (prefilled target table).arguments =
      target.required.filterMap fun name =>
        ((table.get? name).bind unlessBlank?).map (name, ·) := by
  rw [prefilled_eq_setAll, arguments_setAll_of_nodup target
    (hnodup.sublist (map_fst_tableSettings_sublist table target.required)), tableSettings,
    List.filterMap_filterMap]
  apply List.filterMap_congr
  intro name _
  cases table.get? name <;> rfl

end MakeOutline.Invocation
