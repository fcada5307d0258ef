import MakeOutline.Proofs.Outline

/-!
# Recipes

Lines that are commands and start no group are read one at a time.  They add their
texts to the draft of the open rule, expanded with the variables that are known
there, and change nothing else; without an open rule they change nothing at all.
-/

namespace MakeOutline.Extraction.State

@[simp] theorem readLines_nil (state : State) (number : Nat) :
    state.readLines number [] = state := by
  rw [readLines, Item.ofLines_nil]
  rfl

theorem readLines_cons {line : Text} (state : State) (number : Nat) (lines : List Text)
    (hsingle : Item.startsGroup state.ruleOpen line = false) :
    state.readLines number (line :: lines) =
      (state.step ⟨number, [line], .ofLine line⟩).readLines (number + 1) lines := by
  unfold readLines
  rw [Item.ofLines_of_not_startsGroup number lines hsingle, List.foldl_cons, ruleOpen_step]

/-- The state with commands added to the draft of its rule, if one is open. -/
def addCommands (state : State) (texts : List Text) : State :=
  { state with draft? := state.draft?.map (·.addCommands (texts.map (state.table, ·))) }

theorem addCommands_of_none {state : State} (hnone : state.draft? = none) (texts : List Text) :
    state.addCommands texts = state := by
  rw [addCommands, hnone, Option.map_none, ← hnone]

@[simp] theorem addCommands_nil (state : State) : state.addCommands [] = state := by
  cases hdraft : state.draft? with
  | none => exact addCommands_of_none hdraft []
  | some draft =>
      have hsame : draft.addCommands (List.map (state.table, ·) []) = draft := rfl
      rw [addCommands, hdraft, Option.map_some, hsame, ← hdraft]

theorem addCommands_cons (state : State) (text : Text) (texts : List Text) :
    state.addCommands (text :: texts) = (state.addCommands [text]).addCommands texts := by
  cases hdraft : state.draft? with
  | none => rw [addCommands_of_none hdraft, addCommands_of_none hdraft, addCommands_of_none hdraft]
  | some draft => simp [addCommands, hdraft, Target.Draft.addCommands]

@[simp] theorem ruleOpen_addCommands (state : State) (texts : List Text) :
    (state.addCommands texts).ruleOpen = state.ruleOpen := by
  simp [ruleOpen, addCommands]

theorem step_command_line {line text : Text} (state : State) (number : Nat)
    (hline : Line.ofText line = .command text) :
    state.step ⟨number, [line], .ofLine line⟩ = state.addCommands [text] := by
  have hmeaning : Meaning.ofLine line = .command text := by
    rw [Meaning.ofLine, hline]
  exact state.step_of_command hmeaning

theorem readLines_commands {lines texts : List Text} (state : State) (number : Nat)
    (below : List Text) (hcommands : lines.map Line.ofText = texts.map Line.command)
    (hsingle : state.ruleOpen = true ∨ ∀ line ∈ lines, isContinued line = false) :
    state.readLines number (lines ++ below) =
      (state.addCommands texts).readLines (number + lines.length) below := by
  induction lines generalizing state number texts with
  | nil =>
      obtain rfl : texts = [] := by simpa using hcommands.symm
      simp
  | cons line lines ih =>
      cases texts with
      | nil => simp at hcommands
      | cons text texts =>
          rw [List.map_cons, List.map_cons, List.cons_eq_cons] at hcommands
          obtain ⟨hline, htail⟩ := hcommands
          have hstarts : Item.startsGroup state.ruleOpen line = false := by
            rcases hsingle with hopen | hends
            · simp [Item.startsGroup, hline, hopen]
            · simp [Item.startsGroup, hends line List.mem_cons_self]
          have hrest : (state.addCommands [text]).ruleOpen = true ∨
              ∀ line ∈ lines, isContinued line = false := by
            rw [ruleOpen_addCommands]
            exact hsingle.imp_right fun hends line hmem =>
              hends line (List.mem_cons_of_mem _ hmem)
          rw [List.cons_append, state.readLines_cons number _ hstarts,
            state.step_command_line number hline, ih _ _ htail hrest, ← addCommands_cons,
            List.length_cons, Nat.add_assoc, Nat.add_comm 1]

end MakeOutline.Extraction.State
