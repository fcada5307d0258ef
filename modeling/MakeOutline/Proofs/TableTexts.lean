import MakeOutline.Proofs.ByteOrder
import MakeOutline.Proofs.LastValues
import MakeOutline.Proofs.SelfDelimiting

/-!
# The text of a table

A table is shown as its entries between braces, with commas between them and with names and
values quoted.  The entries can be read back from that, so tables with the same text are
equal.  In whatever order they are taken from the table, sorting them puts the names in the
ascending order of their bytes.
-/

namespace MakeOutline.Variables

def entrySeparator : Text := ", ".toList

def valueMark : Text := ": ".toList

def entryText (entry : Text × Text) : Text := entry.1.quoted ++ (valueMark ++ entry.2.quoted)

/-- The entries between braces, in the order in which they are given. -/
def braced (entries : List (Text × Text)) : Text :=
  '{' :: (Text.joinedBy entrySeparator (entries.map entryText) ++ ['}'])

/-- Entries are ordered by the bytes of their names, and then by those of their values. -/
def compareEntries : Text × Text → Text × Text → Ordering :=
  compareLex (fun a b => Text.compareBytes a.1 b.1) (fun a b => Text.compareBytes a.2 b.2)

def sortedEntries (entries : List (Text × Text)) : List (Text × Text) :=
  entries.mergeSort fun a b => (compareEntries a b).isLE

/-! ## Reading the entries back -/

theorem rendered_eq_braced (table : Variables) : table.rendered = braced table.toList := by
  have hentries : table.toList.map entryText =
      table.toList.map fun entry => entry.1.quoted ++ valueMark ++ entry.2.quoted :=
    List.map_congr_left fun entry _ => (List.append_assoc _ _ _).symm
  rw [braced, hentries]
  rfl

theorem head?_joinedBy_entryText {entries : List (Text × Text)} (hne : entries ≠ []) (t : Text) :
    (Text.joinedBy entrySeparator (entries.map entryText) ++ t).head? = some '"' := by
  obtain ⟨entry, more, rfl⟩ := List.exists_cons_of_ne_nil hne
  cases more with
  | nil => rfl
  | cons next rest => rfl

theorem selfDelimiting_entryText :
    Text.SelfDelimiting (entrySeparator ++ entryText ·) (fun _ => True) (·.head? = some '}') := by
  constructor
  · intro a b s t _ _ _ _ heq
    simp only [entryText, List.append_assoc, List.append_cancel_left_eq] at heq
    obtain ⟨hname, hbehind⟩ := Text.quoted_append_inj heq
    obtain ⟨hvalue, hrest⟩ := Text.quoted_append_inj (List.append_cancel_left hbehind)
    exact ⟨Prod.ext hname hvalue, hrest⟩
  · intro entry t _ hstop
    cases hstop

theorem braced_injective {first second : List (Text × Text)}
    (heq : braced first = braced second) : first = second := by
  have hinner := (List.cons.inj heq).2
  by_cases hnil : first = []
  · by_cases hnil' : second = []
    · rw [hnil, hnil']
    · have hhead := head?_joinedBy_entryText hnil' ['}']
      rw [← hinner, hnil] at hhead
      cases hhead
  · by_cases hnil' : second = []
    · have hhead := head?_joinedBy_entryText hnil ['}']
      rw [hinner, hnil'] at hhead
      cases hhead
    · exact (selfDelimiting_entryText.joinedBy_append_inj hnil hnil' (fun _ _ => trivial)
        (fun _ _ => trivial) rfl rfl hinner).1

/-- A table is known from its text. -/
theorem rendered_eq_rendered_iff {table other : Variables} :
    table.rendered = other.rendered ↔ table = other := by
  constructor
  · intro heq
    rw [rendered_eq_braced, rendered_eq_braced] at heq
    have hvalues := Std.ExtTreeMap.toList_inj.mp (braced_injective heq)
    cases table
    cases other
    exact congrArg mk hvalues
  · exact congrArg rendered

/-! ## Sorting the entries -/

theorem compareEntries_eq :
    compareEntries = compareLex (compareOn Prod.fst) (compareOn Prod.snd) := by
  funext a b
  rw [compareEntries, compareLex, compareLex, Text.compareBytes_eq, Text.compareBytes_eq]
  rfl

/-- The order in which the entries are taken from a table does not show when they are sorted. -/
theorem sortedEntries_eq_toList {table : Variables} {entries : List (Text × Text)}
    (hlisted : table.ListedAs entries) : sortedEntries entries = table.toList := by
  have hsorted : (sortedEntries entries).Pairwise fun a b => (compareEntries a b).isLE := by
    unfold sortedEntries
    rw [compareEntries_eq]
    exact List.pairwise_mergeSort (fun _ _ _ => Std.TransCmp.isLE_trans) isLE_total entries
  have hascending : table.toList.Pairwise fun a b => (compareEntries a b).isLE := by
    refine table.pairwise_compare_toList.imp ?_
    intro a b hlt
    rw [compareEntries, compareLex, Text.compareBytes_eq, hlt]
    rfl
  refine List.Perm.eq_of_pairwise ?_ hsorted hascending ((List.mergeSort_perm _ _).trans hlisted)
  intro a b _ _ hle hge
  rw [compareEntries_eq] at hle hge
  obtain ⟨hname, hvalue⟩ := compareLex_eq_eq.mp (Std.OrientedCmp.isLE_antisymm hle hge)
  exact Prod.ext (Std.LawfulEqOrd.eq_of_compare hname) (Std.LawfulEqOrd.eq_of_compare hvalue)

/-! ## What a table shows -/

/-- What is seen of a table that the assignments lead to, whatever the order in which its
entries are taken. -/
structure ShowsLastValues (table : Variables) (assignments : List (Text × Text)) : Prop where
  get? : ∀ name value, table.get? name = some value ↔ LastAssigned assignments name value
  contains : ∀ name, table.contains name = true ↔ name ∈ assignments.map Prod.fst
  size : table.size = (assignments.map Prod.fst).toFinset.card
  isEmpty : table.isEmpty = true ↔ assignments = []
  nodup : ∀ entries, table.ListedAs entries → (entries.map Prod.fst).Nodup
  listed : ∀ entries, table.ListedAs entries →
    ∀ name value, (name, value) ∈ entries ↔ LastAssigned assignments name value
  rendered : ∀ entries, table.ListedAs entries →
    table.rendered = braced (sortedEntries entries)
  ascending : ∀ entries, table.rendered = braced entries →
    table.ListedAs entries ∧
      (entries.map Prod.fst).Pairwise fun name next => Text.compareBytes name next = .lt

theorem showsLastValues_ofList (assignments : List (Text × Text)) :
    (ofList assignments).ShowsLastValues assignments := by
  constructor
  · exact fun _ _ => get?_ofList_eq_some_iff
  · exact fun _ => contains_ofList
  · exact size_ofList assignments
  · exact isEmpty_ofList
  · intro entries hlisted
    exact (hlisted.map Prod.fst).nodup_iff.mpr (nodup_map_fst_toList _)
  · intro entries hlisted name value
    rw [hlisted.mem_iff, mem_toList_iff, get?_ofList_eq_some_iff]
  · intro entries hlisted
    rw [sortedEntries_eq_toList hlisted, rendered_eq_braced]
  · intro entries hrendered
    rw [rendered_eq_braced] at hrendered
    obtain rfl := braced_injective hrendered
    refine ⟨List.Perm.refl _, ?_⟩
    simp only [List.pairwise_map, Text.compareBytes_eq]
    exact pairwise_compare_toList _

/-- Two tables are equal if and only if their assignments have the same last values, and
if and only if their texts are the same.  Assignments that are made to a table count as if
they stood behind those that led to it. -/
theorem ofList_beq_iff (first second : List (Text × Text)) :
    (SameLastValues first second ↔ (ofList first == ofList second) = true) ∧
      ((ofList first == ofList second) = true ↔
        (ofList first).rendered = (ofList second).rendered) ∧
      (ofList first).ShowsLastValues first ∧
      (ofList first).assignAll second = ofList (first ++ second) := by
  refine ⟨?_, ?_, showsLastValues_ofList first, assignAll_ofList first second⟩
  · rw [sameLastValues_iff, beq_iff_eq]
  · rw [rendered_eq_rendered_iff, beq_iff_eq]

-- The first value of a name leaves no trace, and neither does the order of the names.
example : (ofList [(['A'], ['1']), (['B'], []), (['A'], ['2'])]).rendered =
    (ofList [(['B'], []), (['A'], ['2'])]).rendered := by
  decide +kernel

end MakeOutline.Variables
