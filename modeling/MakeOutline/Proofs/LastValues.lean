import Mathlib.Data.Finset.Card
import MakeOutline.Proofs.Overrides

/-!
# Last values

Of the assignments that lead to a table only the last one of each name counts.  What the
table gives for a name, which names it knows and how many they are is told by these alone,
and tables are equal if these agree.
-/

namespace MakeOutline

/-- The name is assigned the value, and below that it is not assigned again. -/
def LastAssigned (assignments : List (Text × Text)) (name value : Text) : Prop :=
  ∃ above below, assignments = above ++ (name, value) :: below ∧ name ∉ below.map Prod.fst

/-- Both assign the same names, and each of them the same value last. -/
structure SameLastValues (first second : List (Text × Text)) : Prop where
  names : ∀ name, name ∈ first.map Prod.fst ↔ name ∈ second.map Prod.fst
  values : ∀ name ∈ first.map Prod.fst, ∀ value,
    LastAssigned first name value ↔ LastAssigned second name value

theorem lastSetting?_eq_some_iff {assignments : List (Text × Text)} {name value : Text} :
    Invocation.lastSetting? assignments name = some value ↔
      LastAssigned assignments name value := by
  rw [Invocation.lastSetting?, List.lookup_eq_some_iff]
  constructor
  · rintro ⟨below, above, hreverse, hbelow⟩
    refine ⟨above.reverse, below.reverse, ?_, ?_⟩
    · rw [← List.reverse_reverse assignments, hreverse]
      simp
    · intro hname
      obtain ⟨assignment, hmem, rfl⟩ := List.mem_map.mp hname
      simpa using hbelow assignment (List.mem_reverse.mp hmem)
  · rintro ⟨above, below, rfl, hbelow⟩
    refine ⟨below.reverse, above.reverse, by simp, ?_⟩
    intro assignment hmem
    apply bne_iff_ne.mpr
    rintro rfl
    exact hbelow (List.mem_map_of_mem (List.mem_reverse.mp hmem))

namespace Variables

variable {assignments : List (Text × Text)} {name value : Text}

/-- The table after the assignments, made one after the other. -/
def assignAll (table : Variables) (assignments : List (Text × Text)) : Variables :=
  assignments.foldl (fun table (name, value) => table.assign name value) table

theorem assignAll_ofList (first second : List (Text × Text)) :
    (ofList first).assignAll second = ofList (first ++ second) := by
  rw [ofList, ofList, assignAll, List.foldl_append]

theorem get?_ofList (assignments : List (Text × Text)) (name : Text) :
    (ofList assignments).get? name = Invocation.lastSetting? assignments name := by
  induction assignments using List.reverseRecOn with
  | nil => simp [ofList, get?, empty, Invocation.lastSetting?]
  | append_singleton assignments last ih =>
      rw [← assignAll_ofList, assignAll, List.foldl_cons, List.foldl_nil, get?_assign, ih,
        Invocation.lastSetting?, Invocation.lastSetting?, List.reverse_append,
        List.reverse_singleton, List.singleton_append, Invocation.lookup_cons_eq]
      simp only [eq_comm]

theorem get?_ofList_eq_some_iff :
    (ofList assignments).get? name = some value ↔ LastAssigned assignments name value := by
  rw [get?_ofList, lastSetting?_eq_some_iff]

theorem mem_of_get?_ofList (hget : (ofList assignments).get? name = some value) :
    (name, value) ∈ assignments := by
  obtain ⟨above, below, rfl, _⟩ := get?_ofList_eq_some_iff.mp hget
  exact List.mem_append_right above List.mem_cons_self

theorem contains_eq (table : Variables) (name : Text) :
    table.contains name = (table.get? name).isSome :=
  Std.ExtTreeMap.contains_eq_isSome_getElem?

theorem contains_ofList :
    (ofList assignments).contains name = true ↔ name ∈ assignments.map Prod.fst := by
  rw [contains_eq, get?_ofList, Invocation.lastSetting?, Invocation.isSome_lookup_iff,
    List.map_reverse, List.mem_reverse]

/-- Nothing but the last values is left of the assignments. -/
theorem sameLastValues_iff {first second : List (Text × Text)} :
    SameLastValues first second ↔ ofList first = ofList second := by
  constructor
  · intro hsame
    apply ext_get?
    intro name
    by_cases hname : name ∈ first.map Prod.fst
    · apply Option.ext
      intro value
      rw [get?_ofList_eq_some_iff, get?_ofList_eq_some_iff]
      exact hsame.values name hname value
    · have hname' := hname
      rw [hsame.names] at hname'
      rw [← contains_ofList, contains_eq, Option.not_isSome_iff_eq_none] at hname hname'
      rw [hname, hname']
  · intro heq
    constructor
    · intro name
      rw [← contains_ofList, heq, contains_ofList]
    · intro name _ value
      rw [← get?_ofList_eq_some_iff, heq, get?_ofList_eq_some_iff]

/-! ## The entries of a table -/

/-- The entries of the table, in some order. -/
def ListedAs (table : Variables) (entries : List (Text × Text)) : Prop :=
  entries.Perm table.toList

theorem mem_toList_iff {table : Variables} :
    (name, value) ∈ table.toList ↔ table.get? name = some value :=
  Std.ExtTreeMap.mem_toList_iff_getElem?_eq_some

theorem pairwise_compare_toList (table : Variables) :
    table.toList.Pairwise fun first second => compare first.1 second.1 = .lt :=
  Std.ExtTreeMap.ordered_keys_toList

theorem nodup_map_fst_toList (table : Variables) : (table.toList.map Prod.fst).Nodup := by
  rw [List.Nodup, List.pairwise_map]
  refine table.pairwise_compare_toList.imp ?_
  intro first second hlt heq
  rw [heq, Std.ReflOrd.compare_self] at hlt
  contradiction

theorem map_fst_toList_toFinset (assignments : List (Text × Text)) :
    ((ofList assignments).toList.map Prod.fst).toFinset =
      (assignments.map Prod.fst).toFinset := by
  ext name
  have hassigned : name ∈ assignments.map Prod.fst ↔
      ∃ value, (ofList assignments).get? name = some value := by
    rw [← contains_ofList, contains_eq, Option.isSome_iff_exists]
  rw [List.mem_toFinset, List.mem_toFinset, hassigned]
  constructor
  · intro hname
    obtain ⟨⟨_, value⟩, hmem, rfl⟩ := List.mem_map.mp hname
    exact ⟨value, mem_toList_iff.mp hmem⟩
  · rintro ⟨value, hget⟩
    exact List.mem_map.mpr ⟨(name, value), mem_toList_iff.mpr hget, rfl⟩

/-- A table has as many entries as there are names that are assigned. -/
theorem size_ofList (assignments : List (Text × Text)) :
    (ofList assignments).size = (assignments.map Prod.fst).toFinset.card := by
  rw [← map_fst_toList_toFinset, List.toFinset_card_of_nodup (nodup_map_fst_toList _),
    List.length_map]
  exact Std.ExtTreeMap.length_toList.symm

theorem isEmpty_ofList :
    (ofList assignments).isEmpty = true ↔ assignments = [] := by
  have hsize : (ofList assignments).isEmpty = ((ofList assignments).size == 0) :=
    Std.ExtTreeMap.isEmpty_eq_size_beq_zero
  rw [hsize, beq_iff_eq, size_ofList, Finset.card_eq_zero, List.toFinset_eq_empty_iff,
    List.map_eq_nil_iff]

end Variables

end MakeOutline
