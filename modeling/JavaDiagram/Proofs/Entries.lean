import JavaDiagram.Proofs.Table
import JavaDiagram.Proofs.WalkSteps

/-!
# Entries side by side

A diagram of several entries is drawn by one walk, entry after entry. Every entry starts with
nothing open, and no entry looks at what is drawn already, so each of them draws what it draws
alone. Only the participants are shared: each is declared where it first comes up.
-/

namespace JavaDiagram

/-! ### Which methods start a sequence -/

/-- A public method that is no constructor, is not named like a getter or setter, and is not one
that every object has. -/
def StartsSequence (method : MethodRecord) : Prop :=
  method.visibility = .pub ∧ method.isConstructor = false ∧
    (∀ start ∈ ["get", "set", "is"], ¬ start.toList <+: method.name.toList) ∧
    method.name ∉ Library.objectMethods

instance (method : MethodRecord) : Decidable (StartsSequence method) :=
  inferInstanceAs (Decidable (_ ∧ _ ∧ _ ∧ _))

/-- The first methods that start sequences, in the order of the table and of their declarations. -/
def selectedEntries (model : CodeModel) (options : WalkOptions) : List MethodRecord :=
  ((model.methods.entries.flatMap (·.2)).filter fun method => StartsSequence method).take
    options.maxEntries

theorem isEntryCandidate_iff {method : MethodRecord} :
    method.isEntryCandidate = true ↔ StartsSequence method := by
  simp only [MethodRecord.isEntryCandidate, looksLikeAccessor, Text.startsWith,
    Library.isObjectMethod, StartsSequence, Bool.and_eq_true, Bool.not_eq_true',
    Bool.or_eq_false_iff, beq_iff_eq, List.forall_mem_cons, ← List.isPrefixOf_iff_prefix, Bool.not_eq_true,
    List.contains_eq_mem, decide_eq_false_iff_not, and_assoc]
  simp

theorem entryMethods_eq (model : CodeModel) (options : WalkOptions) :
    entryMethods model options.maxEntries = selectedEntries model options := by
  have same : MethodRecord.isEntryCandidate = fun method => decide (StartsSequence method) := by
    funext method
    exact Bool.eq_iff_iff.mpr (isEntryCandidate_iff.trans (decide_eq_true_iff).symm)
  rw [entryMethods, selectedEntries, Table.values, List.flatMap_def, ← same]

/-! ### Participants

Drawing declares the targets of the call messages, each where it first comes up. -/

namespace SequenceDiagram

theorem participants_addParticipant {diagram : SequenceDiagram} {names : List String}
    (listed : diagram.participants.toList = names.eraseDups)
    (name : String) :
    (diagram.addParticipant name).participants.toList = (names ++ [name]).eraseDups := by
  have known : diagram.participants.contains name = true ↔ name ∈ names := by
    rw [← List.mem_eraseDups, ← listed]
    simp
  rw [eraseDups_append_singleton]
  unfold addParticipant
  split
  next old => rw [if_pos (known.mp old), listed]
  next new => rw [if_neg (mt known.mpr new), ← listed, Array.toList_push]

theorem participants_draw (diagram : SequenceDiagram) {names : List String}
    (listed : diagram.participants.toList = names.eraseDups) (steps : List Step) :
    (diagram.draw steps).participants.toList =
      (names ++ steps.filterMap Step.callee?).eraseDups := by
  induction steps generalizing diagram names with
  | nil =>
    rw [List.filterMap_nil, List.append_nil]
    exact listed
  | cons step rest ih =>
    show ((diagram.drawStep step).draw rest).participants.toList = _
    unfold drawStep
    cases called : step.callee? with
    | none =>
      rw [List.filterMap_cons_none called]
      exact ih (diagram.addStep step) listed
    | some name =>
      rw [List.filterMap_cons_some called, List.append_cons]
      have joined := participants_addParticipant listed name
      exact ih ((diagram.addParticipant name).addStep step) joined

theorem participants_draw_client (steps : List Step) :
    (SequenceDiagram.draw { participants := #[client] } steps).participants.toList =
      (client :: steps.filterMap Step.callee?).eraseDups := by
  have listed : (#[client] : Array String).toList = [client].eraseDups := rfl
  exact participants_draw { participants := #[client] } listed steps

end SequenceDiagram

/-! ### Entries one after the other -/

/-- The diagram of one entry, drawn by a walk of its own. -/
def entryAlone (model : CodeModel) (options : WalkOptions) (entry : MethodRecord) :
    SequenceDiagram :=
  ((({} : Walk).join client).runEntry model options entry.owner entry).diagram

section

variable {model : CodeModel} {options : WalkOptions}

def entryCallees (model : CodeModel) (options : WalkOptions) (entry : MethodRecord) : List String :=
  (entrySteps model options [] entry.owner entry).filterMap Step.callee?

theorem entryAlone_eq_draw (model : CodeModel) (options : WalkOptions) (entry : MethodRecord) :
    entryAlone model options entry =
      SequenceDiagram.draw { participants := #[client] }
        (entrySteps model options [] entry.owner entry) := by
  rw [entryAlone, runEntry_eq_draw, join_client]
  rfl

theorem steps_entryAlone (entry : MethodRecord) :
    (entryAlone model options entry).steps.toList =
      entrySteps model options [] entry.owner entry := by
  rw [entryAlone_eq_draw, SequenceDiagram.steps_draw]
  rfl

theorem participants_entryAlone (entry : MethodRecord) :
    (entryAlone model options entry).participants.toList =
      (client :: entryCallees model options entry).eraseDups := by
  rw [entryAlone_eq_draw, SequenceDiagram.participants_draw_client]
  rfl

/-- Entries that are run by a walk with nothing open draw the steps that they draw alone. -/
theorem foldl_runEntry_eq_draw (entries : List MethodRecord) (walk : Walk)
    (closed : walk.path = []) :
    (entries.foldl
        (fun walk entry =>
          let walk := walk.runEntry model options entry.owner entry
          { walk with diagram := walk.diagram.addStep .break })
        walk).diagram =
      walk.diagram.draw (entries.flatMap fun entry =>
        (entryAlone model options entry).steps.toList ++ [.break]) := by
  induction entries generalizing walk with
  | nil => rfl
  | cons entry rest ih =>
    -- The path is empty again after the entry, so the others start as it did.
    rw [List.foldl_cons, ih, List.flatMap_cons, SequenceDiagram.draw_append,
      SequenceDiagram.draw_append, steps_entryAlone]
    · dsimp only
      rw [runEntry_eq_draw, closed]
      rfl
    · dsimp only
      rw [runEntry_eq_draw]

theorem traceAllEntries_of_none (none : selectedEntries model options = []) :
    traceAllEntries model options =
      { steps := #[.note client "No public methods found to display"] } := by
  unfold traceAllEntries
  rw [entryMethods_eq, none]
  rfl

theorem traceAllEntries_eq_draw (some_entry : selectedEntries model options ≠ []) :
    traceAllEntries model options =
      SequenceDiagram.draw { participants := #[client] }
        ((selectedEntries model options).flatMap fun entry =>
          (entryAlone model options entry).steps.toList ++ [.break]) := by
  unfold traceAllEntries
  rw [entryMethods_eq]
  split
  next none => exact absurd none some_entry
  next =>
    dsimp only
    rw [join_client, foldl_runEntry_eq_draw _ _ rfl]

theorem callees_of_entries (entries : List MethodRecord) :
    (entries.flatMap fun entry =>
        (entryAlone model options entry).steps.toList ++ [.break]).filterMap Step.callee? =
      entries.flatMap (entryCallees model options) := by
  rw [List.filterMap_flatMap]
  apply List.flatMap_congr
  intro entry _
  rw [List.filterMap_append, steps_entryAlone]
  exact List.append_nil _

end

/-- The diagram of all entries holds the diagrams of its entries side by side, and an entry that is
found under its own name is drawn as if it had been named. -/
theorem traceAllEntries_side_by_side (model : CodeModel) (options : WalkOptions) :
    (selectedEntries model options = [] →
      traceAllEntries model options =
        { participants := #[], steps := #[.note client "No public methods found to display"] }) ∧
    (selectedEntries model options ≠ [] →
      (traceAllEntries model options).steps.toList =
          (selectedEntries model options).flatMap (fun entry =>
            (entryAlone model options entry).steps.toList ++ [.break]) ∧
        (traceAllEntries model options).participants.toList =
          ((selectedEntries model options).flatMap fun entry =>
            (entryAlone model options entry).participants.toList).eraseDups) ∧
    ∀ entry ∈ selectedEntries model options,
      model.findMethod entry.owner entry.name = some entry →
        (entryAlone model options entry).steps =
          (traceEntry model entry.owner entry.name options).steps := by
  refine ⟨traceAllEntries_of_none, fun some_entry => ⟨?_, ?_⟩, fun entry _ found => ?_⟩
  · rw [traceAllEntries_eq_draw some_entry, SequenceDiagram.steps_draw]
    rfl
  · rw [traceAllEntries_eq_draw some_entry, SequenceDiagram.participants_draw_client,
      callees_of_entries]
    simp only [participants_entryAlone]
    exact (eraseDups_flatMap_cons client _ some_entry).symm
  -- Both are the walk of this record from a fresh start; the look-up only has to find the record.
  · rw [entryAlone_eq_draw, traceEntry_eq_draw options found]

/-- Printing comes twice: the overload without calls is never found by its name. -/
def printing : MethodRecord where
  owner := "Report"
  name := "print"
  returnType := "void"
  calls := [⟨"Paper", "feed", .onInstance, 4⟩, ⟨"Report", "print", .onInstance, 5⟩]

/-- Feeding paper goes back to the report. -/
def feeding : MethodRecord where
  owner := "Paper"
  name := "feed"
  returnType := "int"
  calls := [⟨"Report", "print", .onInstance, 9⟩, ⟨"Paper", "Paper", .construction, 10⟩]

/-- Two classes with an accessor, an overload, and methods that call each other. -/
def office : CodeModel where
  classes := ⟨[("Report", { name := "Report" }), ("Paper", { name := "Paper" })]⟩
  methods := ⟨[
    ("Report", [{ printing with name := "getName" }, printing, { printing with calls := [] }]),
    ("Paper", [feeding, { feeding with name := "refill", visibility := .priv }])]⟩

theorem office_side_by_side :
    selectedEntries office {} = [printing, { printing with calls := [] }, feeding] ∧
      (traceAllEntries office {}).steps.toList =
        [printing, { printing with calls := [] }, feeding].flatMap (fun entry =>
          (entryAlone office {} entry).steps.toList ++ [.break]) ∧
      (entryAlone office {} feeding).steps = (traceEntry office "Paper" "feed" {}).steps := by
  have selected : selectedEntries office {} = [printing, { printing with calls := [] }, feeding] := by
    decide
  obtain ⟨_, together, named⟩ := traceAllEntries_side_by_side office {}
  refine ⟨selected, ?_, named feeding (by rw [selected]; decide) (by decide)⟩
  rw [← selected]
  exact (together (by rw [selected]; decide)).1

end JavaDiagram
