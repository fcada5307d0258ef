import Mathlib.Data.List.Forall2
import Mathlib.Data.List.Induction
import MakeOutline.Extraction.Draft

/-!
# Lists of targets by name

The names of a list are kept apart from what is found under them.  Putting a
target into a list adds its name at the end unless it is there, and changes what
is found under that name alone.  A list without repeated names is known from the
two together.
-/

namespace MakeOutline

/-! ## Names in the order of first use -/

@[simp] theorem addUnseen_nil (names : List Text) : addUnseen names [] = names :=
  rfl

theorem addUnseen_append (names first second : List Text) :
    addUnseen names (first ++ second) = addUnseen (addUnseen names first) second := by
  simp [addUnseen, List.foldl_append]

theorem addUnseen_of_mem {names : List Text} {name : Text} (hmem : name ∈ names) :
    addUnseen names [name] = names := by
  simp [addUnseen, hmem]

theorem addUnseen_of_not_mem {names : List Text} {name : Text} (hmem : name ∉ names) :
    addUnseen names [name] = names ++ [name] := by
  simp [addUnseen, hmem]

theorem prefix_addUnseen (names more : List Text) : names <+: addUnseen names more := by
  induction more using List.reverseRecOn with
  | nil => exact List.prefix_rfl
  | append_singleton more name ih =>
      rw [addUnseen_append]
      by_cases hmem : name ∈ addUnseen names more
      · rw [addUnseen_of_mem hmem]
        exact ih
      · rw [addUnseen_of_not_mem hmem]
        exact ih.trans (List.prefix_append _ _)

theorem mem_addUnseen {names more : List Text} {name : Text} :
    name ∈ addUnseen names more ↔ name ∈ names ∨ name ∈ more := by
  induction more using List.reverseRecOn with
  | nil => simp
  | append_singleton more last ih =>
      rw [addUnseen_append]
      by_cases hmem : last ∈ addUnseen names more
      · rw [addUnseen_of_mem hmem, ih, List.mem_append, List.mem_singleton]
        constructor
        · exact fun hfound => hfound.imp_right Or.inl
        · rintro (hold | hmore | rfl)
          · exact .inl hold
          · exact .inr hmore
          · exact ih.mp hmem
      · rw [addUnseen_of_not_mem hmem, List.mem_append, ih, List.mem_append, or_assoc]

theorem nodup_addUnseen {names : List Text} (more : List Text) (hnodup : names.Nodup) :
    (addUnseen names more).Nodup := by
  induction more using List.reverseRecOn with
  | nil => exact hnodup
  | append_singleton more name ih =>
      rw [addUnseen_append]
      by_cases hmem : name ∈ addUnseen names more
      · rw [addUnseen_of_mem hmem]
        exact ih
      · rw [addUnseen_of_not_mem hmem]
        refine List.nodup_append.mpr ⟨ih, by simp, ?_⟩
        intro other hother last hlast heq
        rw [List.mem_singleton] at hlast
        rw [heq, hlast] at hother
        exact hmem hother

theorem addUnseen_eq_eraseDups (more : List Text) : addUnseen [] more = more.eraseDups := by
  induction more using List.reverseRecOn with
  | nil => rfl
  | append_singleton more name ih =>
      rw [addUnseen_append, ih, List.eraseDups_append]
      by_cases hmem : name ∈ more
      · rw [addUnseen_of_mem (by simpa using hmem)]
        simp [List.removeAll, hmem]
      · rw [addUnseen_of_not_mem (by simpa using hmem)]
        simp [List.removeAll, hmem, List.eraseDups_cons]

/-! ## Finding a target by its name -/

namespace Target

theorem trim_ne_nil_of_isSpecial {name : Text} (hspecial : isSpecial name = false) :
    name.trim ≠ [] := by
  simp only [isSpecial, Bool.or_eq_false_iff] at hspecial
  simpa using hspecial.2

theorem find?_of_mem {targets : List Target} {target : Target}
    (hnodup : (targets.map name).Nodup) (hmem : target ∈ targets) :
    targets.find? (·.name == target.name) = some target := by
  induction targets with
  | nil => simp at hmem
  | cons first others ih =>
      rw [List.map_cons, List.nodup_cons] at hnodup
      rcases List.mem_cons.mp hmem with rfl | htail
      · rw [List.find?_cons_of_pos (by simp)]
      · have hne : first.name ≠ target.name := by
          intro heq
          apply hnodup.1
          rw [heq]
          exact List.mem_map_of_mem htail
        rw [List.find?_cons_of_neg (by simpa using hne)]
        exact ih hnodup.2 htail

/-- The place of a name tells where the target found under it stands. -/
theorem getElem?_of_find? {targets : List Target} {target : Target} {name : Text} {i : Nat}
    (hnodup : (targets.map Target.name).Nodup)
    (hname : (targets.map Target.name)[i]? = some name)
    (hfind : targets.find? (·.name == name) = some target) : targets[i]? = some target := by
  rw [List.getElem?_map, Option.map_eq_some_iff] at hname
  obtain ⟨found, hget, hfound⟩ := hname
  have hsame := find?_of_mem hnodup (List.mem_of_getElem? hget)
  rw [hfound, hfind] at hsame
  rw [hget, hsame]

theorem filterMap_find?_map_name {targets : List Target}
    (hnodup : (targets.map name).Nodup) :
    (targets.map name).filterMap (fun name => targets.find? (·.name == name)) = targets := by
  rw [List.filterMap_map]
  calc
    targets.filterMap ((fun name => targets.find? (·.name == name)) ∘ name) =
        targets.filterMap some := by
      apply List.filterMap_congr
      intro target hmem
      exact find?_of_mem hnodup hmem
    _ = targets := List.filterMap_some

theorem eq_of_find?_eq {first second : List Target}
    (hnames : first.map name = second.map name) (hnodup : (first.map name).Nodup)
    (hfind : ∀ name, first.find? (·.name == name) = second.find? (·.name == name)) :
    first = second := by
  have hnodup' : (second.map name).Nodup := by
    rw [← hnames]
    exact hnodup
  calc
    first = (first.map name).filterMap fun name => first.find? (·.name == name) :=
      (filterMap_find?_map_name hnodup).symm
    _ = (second.map name).filterMap fun name => second.find? (·.name == name) := by
      rw [hnames]
      exact List.filterMap_congr fun name _ => hfind name
    _ = second := filterMap_find?_map_name hnodup'

/-! ## Putting a target into a list -/

theorem map_name_putInto (target : Target) (targets : List Target) :
    (target.putInto targets).map name = addUnseen (targets.map name) [target.name] := by
  induction targets with
  | nil => simp [putInto, addUnseen]
  | cons first others ih =>
      simp only [putInto]
      by_cases hname : first.name = target.name
      · rw [if_pos hname, addUnseen_of_mem (by simp [hname])]
        simp [hname]
      · rw [if_neg hname, List.map_cons, ih]
        by_cases hmem : target.name ∈ others.map name
        · have hmem' : target.name ∈ (first :: others).map name :=
            List.mem_cons_of_mem _ hmem
          rw [addUnseen_of_mem hmem, addUnseen_of_mem hmem', List.map_cons]
        · have hnot : target.name ∉ (first :: others).map name := by
            rw [List.map_cons, List.mem_cons, not_or]
            exact ⟨fun heq => hname heq.symm, hmem⟩
          rw [addUnseen_of_not_mem hmem, addUnseen_of_not_mem hnot]
          rfl

theorem find?_putInto (target : Target) (targets : List Target) (name : Text) :
    (target.putInto targets).find? (·.name == name) =
      if target.name = name then some target else targets.find? (·.name == name) := by
  induction targets with
  | nil => by_cases hname : target.name = name <;> simp [putInto, hname]
  | cons first others ih =>
      simp only [putInto]
      by_cases hfirst : first.name = target.name
      · rw [if_pos hfirst]
        by_cases hname : target.name = name
        · rw [List.find?_cons_of_pos (by simpa using hname), if_pos hname]
        · rw [List.find?_cons_of_neg (by simpa using hname), if_neg hname,
            List.find?_cons_of_neg (by simpa [hfirst] using hname)]
      · rw [if_neg hfirst]
        by_cases hname : first.name = name
        · have hne : target.name ≠ name := fun heq => hfirst (hname.trans heq.symm)
          rw [List.find?_cons_of_pos (by simpa using hname), if_neg hne,
            List.find?_cons_of_pos (by simpa using hname)]
        · rw [List.find?_cons_of_neg (by simpa using hname), ih,
            List.find?_cons_of_neg (by simpa using hname)]

/-- Putting a target into a list makes it longer unless the name is there. -/
theorem length_putInto_add (target : Target) (targets : List Target) :
    (target.putInto targets).length +
        (targets.find? (·.name == target.name)).toList.length = targets.length + 1 := by
  induction targets with
  | nil => rfl
  | cons first others ih =>
      simp only [putInto]
      by_cases hname : first.name = target.name
      · rw [if_pos hname, List.find?_cons_of_pos (by simpa using hname)]
        rfl
      · rw [if_neg hname, List.find?_cons_of_neg (by simpa using hname), List.length_cons,
          List.length_cons]
        omega

theorem mem_putInto (target : Target) (targets : List Target) :
    target ∈ target.putInto targets := by
  apply List.mem_of_find?_eq_some (p := (·.name == target.name))
  rw [find?_putInto, if_pos rfl]

theorem mem_of_mem_putInto {target other : Target} {targets : List Target}
    (hmem : other ∈ target.putInto targets) : other = target ∨ other ∈ targets := by
  induction targets with
  | nil =>
      rw [putInto, List.mem_singleton] at hmem
      exact .inl hmem
  | cons first others ih =>
      simp only [putInto] at hmem
      split at hmem
      · rcases List.mem_cons.mp hmem with heq | htail
        · exact .inl heq
        · exact .inr (List.mem_cons_of_mem _ htail)
      · rcases List.mem_cons.mp hmem with rfl | htail
        · exact .inr List.mem_cons_self
        · exact (ih htail).imp_right (List.mem_cons_of_mem _)

theorem putInto_map {f : Target → Target} (hf : ∀ target, (f target).name = target.name)
    (target : Target) (targets : List Target) :
    (f target).putInto (targets.map f) = (target.putInto targets).map f := by
  induction targets with
  | nil => rfl
  | cons first others ih =>
      simp only [List.map_cons, putInto, hf]
      by_cases hname : first.name = target.name
      · simp [hname]
      · simp [hname, ih]

theorem forall₂_putInto {R : Target → Target → Prop}
    (hR : ∀ first second, R first second → first.name = second.name)
    {target target' : Target} {targets targets' : List Target}
    (hrel : R target target') (hall : List.Forall₂ R targets targets') :
    List.Forall₂ R (target.putInto targets) (target'.putInto targets') := by
  have hname := hR _ _ hrel
  induction hall with
  | nil => exact .cons hrel .nil
  | @cons first first' others others' hfirst hothers ih =>
      simp only [putInto, ← hR _ _ hfirst, ← hname]
      by_cases heq : first.name = target.name
      · rw [if_pos heq, if_pos heq]
        exact .cons hrel hothers
      · rw [if_neg heq, if_neg heq]
        exact .cons hfirst ih

end Target

end MakeOutline
