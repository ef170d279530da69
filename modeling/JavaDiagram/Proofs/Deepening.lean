import Mathlib.Data.List.Flatten
import JavaDiagram.Proofs.Saturation

/-!
# Deeper walks

Where the depth ends a walk, a deeper walk goes on; everywhere else the two draw the same. So a
shallow walk without its cuts is found, in its order, in every deeper one, and no participant is
lost. Participants may change places: one that a shallow walk meets late can come up earlier inside
an expansion that used to be cut.
-/

namespace JavaDiagram

/-- Whether a step is the note where the depth ended a walk. -/
def Step.isCut : Step → Bool
  | .note _ text => text == depthNote
  | _ => false

/-- Steps without the notes where the depth ended the walk. -/
def withoutCuts (steps : List Step) : List Step :=
  steps.filter (!·.isCut)

theorem withoutCuts_append (front back : List Step) :
    withoutCuts (front ++ back) = withoutCuts front ++ withoutCuts back :=
  List.filter_append front back

theorem withoutCuts_flatMap {α : Type} (items : List α) (steps : α → List Step) :
    withoutCuts (items.flatMap steps) = items.flatMap fun item => withoutCuts (steps item) :=
  List.filter_flatMap

theorem withoutCuts_sublist (steps : List Step) : (withoutCuts steps).Sublist steps :=
  List.filter_sublist

/-- Messages are never cuts, so a step that brings in a participant is kept. -/
theorem mem_withoutCuts {steps : List Step} {step : Step} {name : String}
    (member : step ∈ steps) (called : step.callee? = some name) : step ∈ withoutCuts steps := by
  have kept : (!step.isCut) = true := by
    cases step with
    | note => cases called
    | message | «break» => rfl
  exact List.mem_filter.mpr ⟨member, kept⟩

/-! ### Expansions -/

section

variable (model : CodeModel)

theorem isCut_message (caller : String) (call : CallRecord) :
    (call.message model caller).isCut = false := by
  unfold CallRecord.message
  split <;> rfl

theorem withoutCuts_answer_sublist {shallow deep : MethodRecord → String → List Step}
    (inner : ∀ method target, (withoutCuts (shallow method target)).Sublist (deep method target))
    (caller : String) (call : CallRecord) :
    (withoutCuts (call.answer model shallow caller)).Sublist (call.answer model deep caller) := by
  unfold CallRecord.answer
  split
  · exact withoutCuts_sublist _
  · cases model.findMethod call.target call.member with
    | none => exact withoutCuts_sublist _
    | some method =>
      dsimp only
      rw [withoutCuts_append]
      exact (inner method call.target).append (withoutCuts_sublist _)

theorem withoutCuts_callSteps_sublist {shallow deep : MethodRecord → String → List Step}
    (inner : ∀ method target, (withoutCuts (shallow method target)).Sublist (deep method target))
    (caller : String) (call : CallRecord) :
    (withoutCuts (callSteps model shallow caller call)).Sublist
      (callSteps model deep caller call) := by
  unfold callSteps
  split
  · have kept : (!(call.message model caller).isCut) = true := by rw [isCut_message]; rfl
    have answered := withoutCuts_answer_sublist model inner caller call
    rw [withoutCuts, List.filter_cons, if_pos kept]
    exact answered.cons_cons _
  · exact withoutCuts_sublist _

/-- A walk that may open more methods draws what a shallower one draws, its cuts apart. -/
theorem withoutCuts_expansion_sublist {fewer more : Nat} (deeper : fewer ≤ more)
    (path : List (String × String)) (method : MethodRecord) (caller : String) :
    (withoutCuts (expansion model fewer path method caller)).Sublist
      (expansion model more path method caller) := by
  induction fewer generalizing more path method caller with
  | zero =>
    -- All that the shallow walk draws here is its cut.
    have nothing : withoutCuts (expansion model 0 path method caller) = [] := rfl
    rw [nothing]
    exact List.nil_sublist _
  | succ fewer ih =>
    obtain ⟨more, rfl⟩ := Nat.exists_eq_add_one.mpr (Nat.lt_of_lt_of_le fewer.succ_pos deeper)
    have deeper' : fewer ≤ more := Nat.le_of_succ_le_succ deeper
    by_cases repeated : method.key ∈ path
    · rw [expansion_of_mem caller repeated, expansion_of_mem caller repeated]
      exact withoutCuts_sublist _
    · rw [expansion_of_not_mem caller repeated, expansion_of_not_mem caller repeated,
        withoutCuts_flatMap]
      -- Both walks have the same methods open, so their calls can be compared one by one.
      apply List.Sublist.flatMap_right
      intro call _
      apply withoutCuts_callSteps_sublist
      intro callee target
      exact ih deeper' (method.key :: path) callee target

theorem withoutCuts_entrySteps_sublist {options options' : WalkOptions}
    (deeper : options.clamped.maxDepth ≤ options'.clamped.maxDepth) (className : String)
    (entry : MethodRecord) :
    (withoutCuts (entrySteps model options [] className entry)).Sublist
      (entrySteps model options' [] className entry) := by
  have inside := withoutCuts_expansion_sublist model deeper [] entry className
  have around := inside.append (withoutCuts_sublist [.message className client .return
    entry.replyLabel])
  rw [← withoutCuts_append] at around
  exact around.cons_cons _

end

/-! ### Diagrams -/

/-- Whether a diagram has all that another one has, the cuts of that one apart. -/
structure Deepens (shallow deep : SequenceDiagram) : Prop where
  steps : (withoutCuts shallow.steps.toList).Sublist deep.steps.toList
  participants : ∀ name ∈ shallow.participants, name ∈ deep.participants

theorem Deepens.refl (diagram : SequenceDiagram) : Deepens diagram diagram :=
  ⟨withoutCuts_sublist _, fun _ => id⟩

theorem Deepens.draw {steps steps' : List Step} (added : (withoutCuts steps).Sublist steps') :
    Deepens (SequenceDiagram.draw { participants := #[client] } steps)
      (SequenceDiagram.draw { participants := #[client] } steps') := by
  constructor
  · rw [SequenceDiagram.steps_draw, SequenceDiagram.steps_draw]
    exact added
  · intro name
    rw [SequenceDiagram.mem_draw, SequenceDiagram.mem_draw]
    rintro (start | ⟨step, member, called⟩)
    · exact Or.inl start
    · exact Or.inr ⟨step, added.subset (mem_withoutCuts member called), called⟩

/-- Raising the depth only adds, to the sequence of a named entry and to that of all entries. -/
theorem traces_deepen (model : CodeModel) {options options' : WalkOptions}
    (entries : options.maxEntries = options'.maxEntries)
    (deeper : min options.maxDepth 64 ≤ min options'.maxDepth 64) :
    (∀ className methodName, Deepens (traceEntry model className methodName options)
      (traceEntry model className methodName options')) ∧
    Deepens (traceAllEntries model options) (traceAllEntries model options') := by
  constructor
  · intro className methodName
    cases found : model.findMethod className methodName with
    | none =>
      rw [traceEntry_of_missing options found, traceEntry_of_missing options' found]
      exact Deepens.refl _
    | some entry =>
      rw [traceEntry_eq_draw options found, traceEntry_eq_draw options' found]
      exact Deepens.draw (withoutCuts_entrySteps_sublist model deeper className entry)
  · -- The selection of entries looks at their number only.
    have selected : selectedEntries model options' = selectedEntries model options := by
      rw [selectedEntries, selectedEntries, entries]
    by_cases none : selectedEntries model options = []
    · rw [traceAllEntries_of_none none, traceAllEntries_of_none (selected.trans none)]
      exact Deepens.refl _
    · rw [traceAllEntries_eq_draw none, traceAllEntries_eq_draw (selected ▸ none), selected]
      apply Deepens.draw
      rw [withoutCuts_flatMap]
      apply List.Sublist.flatMap_right
      intro entry _
      rw [steps_entryAlone, steps_entryAlone, withoutCuts_append]
      have alone := withoutCuts_entrySteps_sublist model deeper entry.owner entry
      exact alone.append (withoutCuts_sublist [.break])

/-- Booking a trip reserves, pays and confirms, and reserving confirms as well. -/
def travel : CodeModel where
  classes := ⟨[("Trip", { name := "Trip" }), ("Hotel", { name := "Hotel" }),
    ("Bank", { name := "Bank" }), ("Mail", { name := "Mail" })]⟩
  methods := ⟨[
    ("Trip", [{ owner := "Trip", name := "book", returnType := "void",
                calls := [⟨"Hotel", "reserve", .onInstance, 2⟩, ⟨"Bank", "pay", .onInstance, 3⟩,
                  ⟨"Mail", "confirm", .onInstance, 4⟩] }]),
    ("Hotel", [{ owner := "Hotel", name := "reserve", returnType := "Room",
                 calls := [⟨"Mail", "confirm", .onInstance, 9⟩] }])]⟩

theorem travel_deepens :
    (min 1 64 ≤ min 2 64 ∧
      Deepens (traceEntry travel "Trip" "book" { maxDepth := 1 })
        (traceEntry travel "Trip" "book" { maxDepth := 2 })) ∧
    .note "Hotel" depthNote ∈
      (traceEntry travel "Trip" "book" { maxDepth := 1 }).steps.toList := by
  have deeper : min 1 64 ≤ min 2 64 := by decide
  have deepens := @traces_deepen travel { maxDepth := 1 } { maxDepth := 2 } rfl deeper
  exact ⟨⟨deeper, deepens.1 "Trip" "book"⟩, by decide +kernel⟩

/-- One level more brings the mail up before the bank. -/
example :
    (traceEntry travel "Trip" "book" { maxDepth := 1 }).participants.toList =
        ["Client", "Trip", "Hotel", "Bank", "Mail"] ∧
      (traceEntry travel "Trip" "book" { maxDepth := 2 }).participants.toList =
        ["Client", "Trip", "Hotel", "Mail", "Bank"] := by
  decide +kernel

end JavaDiagram
