import MakeOutline.Proofs.Groups

/-!
# Cutting lines into items

How the items of a list of lines hang on what stands around it.  Complete lines
are cut the same way whatever follows them; what they leave behind is whether a
rule is open.  The number at which counting starts only moves the numbers of the
items.
-/

namespace MakeOutline.Item

def header? (item : Item) : Option Header :=
  match item.meaning with
  | .header header => some header
  | _ => none

def command? (item : Item) : Option Text :=
  match item.meaning with
  | .command text => some text
  | _ => none

def assignment? (item : Item) : Option Assignment :=
  match item.meaning with
  | .assignment a => some a
  | _ => none

def opened? (item : Item) : Option Text :=
  match item.meaning with
  | .header header => if Target.isSpecial header.name then none else some header.name
  | _ => none

/-- The names of the rules that the items open. -/
def openedNames (items : List Item) : List Text := items.filterMap opened?

/-- Whether a rule is open below the items. -/
def ruleOpenBelow (ruleOpen : Bool) (items : List Item) : Bool :=
  items.foldl (fun isOpen item => item.meaning.ruleOpenAfter isOpen) ruleOpen

@[simp] theorem ruleOpenBelow_nil (ruleOpen : Bool) : ruleOpenBelow ruleOpen [] = ruleOpen :=
  rfl

@[simp] theorem ruleOpenBelow_cons (ruleOpen : Bool) (item : Item) (items : List Item) :
    ruleOpenBelow ruleOpen (item :: items) =
      ruleOpenBelow (item.meaning.ruleOpenAfter ruleOpen) items :=
  rfl

theorem meaning_of_header? {item : Item} {header : Header}
    (hitem : item.header? = some header) : item.meaning = .header header := by
  unfold header? at hitem
  split at hitem
  next h hmeaning => rw [hmeaning, Option.some.inj hitem]
  next => contradiction

theorem meaning_of_assignment? {item : Item} {a : Assignment}
    (hitem : item.assignment? = some a) : item.meaning = .assignment a := by
  unfold assignment? at hitem
  split at hitem
  next b hmeaning => rw [hmeaning, Option.some.inj hitem]
  next => contradiction

theorem openedNames_cons (item : Item) (items : List Item) :
    openedNames (item :: items) = item.opened?.toList ++ openedNames items := by
  unfold openedNames
  rw [List.filterMap_cons]
  cases item.opened? <;> rfl

theorem isSpecial_of_mem_openedNames {items : List Item} {name : Text}
    (hmem : name ∈ openedNames items) : Target.isSpecial name = false := by
  obtain ⟨item, _, hopened⟩ := List.mem_filterMap.mp hmem
  unfold opened? at hopened
  split at hopened
  next header hmeaning =>
    rw [Option.ite_none_left_eq_some, Option.some.injEq] at hopened
    rw [← hopened.2]
    simpa using hopened.1
  next => simp at hopened

/-! ## One item at a time -/

@[simp] theorem ofLines_nil (ruleOpen : Bool) (number : Nat) :
    ofLines ruleOpen number [] = [] := by
  rw [ofLines]

theorem ofLines_of_startsGroup {ruleOpen : Bool} {line : Text} (number : Nat)
    (lines : List Text) (hstarts : startsGroup ruleOpen line = true) :
    ofLines ruleOpen number (line :: lines) =
      ⟨number, (Continuation.split (line :: lines)).1,
          .ofGroup (Continuation.split (line :: lines)).1⟩ ::
        ofLines
          ((Meaning.ofGroup (Continuation.split (line :: lines)).1).ruleOpenAfter ruleOpen)
          (number + (Continuation.split (line :: lines)).1.length)
          (Continuation.split (line :: lines)).2 := by
  rw [ofLines]
  simp only [hstarts, if_true]

theorem ofLines_of_not_startsGroup {ruleOpen : Bool} {line : Text} (number : Nat)
    (lines : List Text) (hstarts : startsGroup ruleOpen line = false) :
    ofLines ruleOpen number (line :: lines) =
      ⟨number, [line], .ofLine line⟩ ::
        ofLines ((Meaning.ofLine line).ruleOpenAfter ruleOpen) (number + 1) lines := by
  rw [ofLines]
  simp only [hstarts, Bool.false_eq_true, if_false]

theorem ofLines_group_append {line : Text} {more : List Text} (ruleOpen : Bool)
    (number : Nat) (lines : List Text)
    (hstarts : startsGroup ruleOpen line = true)
    (hchained : Continuation.Chained (line :: more))
    (hends : Continuation.Complete (line :: more) ∨ lines = []) :
    ofLines ruleOpen number (line :: more ++ lines) =
      ⟨number, line :: more, .ofGroup (line :: more)⟩ ::
        ofLines ((Meaning.ofGroup (line :: more)).ruleOpenAfter ruleOpen)
          (number + (line :: more).length) lines := by
  have hsplit := Continuation.split_of_chained lines (by simp) hchained hends
  rw [List.cons_append] at hsplit ⊢
  rw [ofLines_of_startsGroup number _ hstarts, hsplit]

/-! ## Lines above and below a cut -/

theorem ofLines_append (ruleOpen : Bool) (number : Nat) (first second : List Text)
    (hcomplete : Continuation.Complete first) :
    ofLines ruleOpen number (first ++ second) =
      ofLines ruleOpen number first ++
        ofLines (ruleOpenBelow ruleOpen (ofLines ruleOpen number first))
          (number + first.length) second := by
  fun_induction ofLines ruleOpen number first with
  | case1 => simp
  | case2 ruleOpen number line lines hstarts group meaning ih =>
      have hsplit := Continuation.split_append_of_complete second hcomplete
      have hgroup : group.length + (Continuation.split (line :: lines)).2.length =
          (line :: lines).length :=
        Continuation.length_split_add (line :: lines)
      rw [List.cons_append, ofLines_of_startsGroup _ _ hstarts, hsplit,
        ih (Continuation.complete_split_snd hcomplete), List.cons_append,
        ruleOpenBelow_cons]
      rw [Nat.add_assoc, hgroup]
  | case3 ruleOpen number line lines hstarts meaning ih =>
      rw [List.cons_append, ofLines_of_not_startsGroup _ _ (by simpa using hstarts),
        ih hcomplete.of_cons, List.cons_append, ruleOpenBelow_cons, List.length_cons,
        Nat.add_assoc, Nat.add_comm 1]

/-- The lines of the first items give these items again when they stand alone. -/
theorem ofLines_flatMap_of_append (ruleOpen : Bool) (number : Nat) (lines : List Text) :
    ∀ above below, ofLines ruleOpen number lines = above ++ below →
      ofLines ruleOpen number (above.flatMap Item.lines) = above := by
  fun_induction ofLines ruleOpen number lines with
  | case1 =>
      intro above below hcut
      obtain ⟨rfl, _⟩ := List.append_eq_nil_iff.mp hcut.symm
      simp
  | case2 ruleOpen number line lines hstarts group meaning ih =>
      intro above below hcut
      cases above with
      | nil => simp
      | cons item above =>
          obtain ⟨rfl, hrest⟩ := List.cons_eq_cons.mp hcut
          obtain ⟨more, hgroup⟩ : ∃ more, group = line :: more :=
            Continuation.exists_split_cons line lines
          -- A group that does not end by itself has no lines below it.
          have hends : Continuation.Complete group ∨ above.flatMap Item.lines = [] := by
            refine (Continuation.complete_split_or_eq_nil (line :: lines)).imp_right ?_
            intro hnone
            rw [hnone, ofLines_nil] at hrest
            obtain ⟨rfl, _⟩ := List.append_eq_nil_iff.mp hrest.symm
            rfl
          have hchained : Continuation.Chained group := Continuation.chained_split _
          have htail := ih above below hrest
          rw [List.flatMap_cons]
          simp only [meaning, hgroup] at hends hchained htail ⊢
          rw [ofLines_group_append ruleOpen number _ hstarts hchained hends, htail]
  | case3 ruleOpen number line lines hstarts meaning ih =>
      intro above below hcut
      cases above with
      | nil => simp
      | cons item above =>
          obtain ⟨rfl, hrest⟩ := List.cons_eq_cons.mp hcut
          rw [List.flatMap_cons, List.singleton_append,
            ofLines_of_not_startsGroup _ _ (by simpa using hstarts), ih above below hrest]

/-! ## Numbers of items -/

def renumber (f : Nat → Nat) (item : Item) : Item := { item with line := f item.line }

theorem ofLines_add (ruleOpen : Bool) (number shift : Nat) (lines : List Text) :
    ofLines ruleOpen (number + shift) lines =
      (ofLines ruleOpen number lines).map (renumber (· + shift)) := by
  fun_induction ofLines ruleOpen number lines with
  | case1 => simp
  | case2 ruleOpen number line lines hstarts group meaning ih =>
      rw [ofLines_of_startsGroup _ _ hstarts, List.map_cons, ← ih,
        Nat.add_right_comm]
      rfl
  | case3 ruleOpen number line lines hstarts meaning ih =>
      rw [ofLines_of_not_startsGroup _ _ (by simpa using hstarts), List.map_cons, ← ih,
        Nat.add_right_comm]
      rfl

theorem line_bounds_of_mem_ofLines {ruleOpen : Bool} {number : Nat} {lines : List Text}
    {item : Item} (hmem : item ∈ ofLines ruleOpen number lines) :
    number ≤ item.line ∧ item.line < number + lines.length := by
  fun_induction ofLines ruleOpen number lines with
  | case1 => simp at hmem
  | case2 ruleOpen number line lines hstarts group meaning ih =>
      have hlength : group.length + (Continuation.split (line :: lines)).2.length =
          (line :: lines).length :=
        Continuation.length_split_add (line :: lines)
      have hshorter := Continuation.length_split_lt line lines
      rcases List.mem_cons.mp hmem with rfl | htail
      · simp
      · have hbounds := ih htail
        omega
  | case3 ruleOpen number line lines hstarts meaning ih =>
      rw [List.length_cons]
      rcases List.mem_cons.mp hmem with rfl | htail
      · simp
      · have hbounds := ih htail
        omega

theorem pairwise_line_ofLines (ruleOpen : Bool) (number : Nat) (lines : List Text) :
    (ofLines ruleOpen number lines).Pairwise (·.line < ·.line) := by
  fun_induction ofLines ruleOpen number lines with
  | case1 => exact .nil
  | case2 ruleOpen number line lines hstarts group meaning ih =>
      refine .cons ?_ ih
      intro item hmem
      have hbounds := line_bounds_of_mem_ofLines hmem
      have hlength : group.length + (Continuation.split (line :: lines)).2.length =
          (line :: lines).length :=
        Continuation.length_split_add (line :: lines)
      have hshorter := Continuation.length_split_lt line lines
      simp only
      omega
  | case3 ruleOpen number line lines hstarts meaning ih =>
      refine .cons ?_ ih
      intro item hmem
      have hbounds := line_bounds_of_mem_ofLines hmem
      simp only
      omega

end MakeOutline.Item
