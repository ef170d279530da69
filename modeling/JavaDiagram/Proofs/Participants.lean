import JavaDiagram.Proofs.ClientMessages
import JavaDiagram.Proofs.Entries
import JavaDiagram.Proofs.Nesting

/-!
# Participants and message ends

Participants are declared apart from the messages, where a call is drawn. They are nevertheless the
ends of the messages in order of first appearance: a party sends or answers only what it was called
for, so its name has come up before, and a reply has no end that its call did not have. The steps of
a diagram are words of the grammar of bodies, so this is shown rule by rule.
-/

namespace JavaDiagram

/-- Whether steps that a party draws bring in others by calling them only: after names that include
the party's, the ends of the messages add what the targets of the calls add, and in the same order.
Notes are over the party or over a called one. -/
structure CallsIn (party : String) (steps : List Step) : Prop where
  ends : ∀ names, party ∈ names →
    (names ++ steps.flatMap Step.endpoints).eraseDups =
      (names ++ steps.filterMap Step.callee?).eraseDups
  notes : ∀ subject text, .note subject text ∈ steps →
    subject = party ∨ subject ∈ steps.filterMap Step.callee?

/-- Names that came up before add nothing, whatever follows them. -/
theorem eraseDups_append_append_of_subset {names again : List String} (known : again ⊆ names)
    (back : List String) : (names ++ (again ++ back)).eraseDups = (names ++ back).eraseDups := by
  rw [← List.append_assoc]
  exact eraseDups_append_congr (eraseDups_append_of_subset known) back

namespace CallsIn

theorem nil (party : String) : CallsIn party [] :=
  ⟨fun _ _ => rfl, fun _ _ member => by cases member⟩

theorem append {party : String} {front back : List Step} (first : CallsIn party front)
    (second : CallsIn party back) : CallsIn party (front ++ back) := by
  constructor
  · intro names known
    -- The names of the first steps come before the second ones as names known so far.
    have still : party ∈ names ++ front.filterMap Step.callee? := List.mem_append_left _ known
    rw [List.flatMap_append, List.filterMap_append, ← List.append_assoc, ← List.append_assoc,
      eraseDups_append_congr (first.ends names known), second.ends _ still]
  · intro subject text member
    rw [List.filterMap_append, List.mem_append]
    rcases List.mem_append.mp member with member | member
    · rcases first.notes subject text member with own | called
      · exact Or.inl own
      · exact Or.inr (Or.inl called)
    · rcases second.notes subject text member with own | called
      · exact Or.inl own
      · exact Or.inr (Or.inr called)

theorem flatten {party : String} {parts : List (List Step)}
    (each : ∀ part ∈ parts, CallsIn party part) : CallsIn party parts.flatten := by
  induction parts with
  | nil => exact nil party
  | cons part rest ih =>
    rw [List.flatten_cons]
    exact (each part (by simp)).append (ih fun other member => each other (by simp [member]))

theorem note (party text : String) : CallsIn party [.note party text] := by
  refine ⟨fun _ _ => rfl, fun subject other member => Or.inl ?_⟩
  cases List.mem_singleton.mp member
  rfl

theorem of_break (party : String) : CallsIn party [.break] :=
  ⟨fun _ _ => rfl, fun _ _ member => by cases List.mem_singleton.mp member⟩

/-- A call, what its target draws, and the replies between the two. -/
theorem call {party target : String} {opening : Step} {inner replies : List Step}
    (ends : opening.endpoints = [party, target]) (called : opening.callee? = some target)
    (body : CallsIn target inner)
    (replied : ∀ step ∈ replies, step.endpoints = [target, party] ∧ step.callee? = none) :
    CallsIn party (opening :: (inner ++ replies)) := by
  have silent : replies.filterMap Step.callee? = [] :=
    List.filterMap_eq_nil_iff.mpr fun step member => (replied step member).2
  have targets : (opening :: (inner ++ replies)).filterMap Step.callee? =
      target :: inner.filterMap Step.callee? := by
    rw [List.filterMap_cons_some called, List.filterMap_append, silent, List.append_nil]
  constructor
  · intro names known
    have inside := body.ends (names ++ [target]) (by simp)
    -- The party is known before the call and the target after it, so the replies add nobody.
    have old : replies.flatMap Step.endpoints ⊆
        names ++ [target] ++ inner.filterMap Step.callee? := by
      intro name member
      obtain ⟨step, listed, member⟩ := List.mem_flatMap.mp member
      have parties : name = target ∨ name = party := by
        simpa [(replied step listed).1] using member
      rcases parties with rfl | rfl
      · simp
      · simp [known]
    calc
      (names ++ (opening :: (inner ++ replies)).flatMap Step.endpoints).eraseDups
        = (names ++ ([party] ++ ([target] ++ inner.flatMap Step.endpoints ++
            replies.flatMap Step.endpoints))).eraseDups := by
          simp [ends]
      _ = (names ++ [target] ++ inner.flatMap Step.endpoints ++
            replies.flatMap Step.endpoints).eraseDups := by
          rw [eraseDups_append_append_of_subset (by simpa using known)]
          simp
      _ = (names ++ [target] ++ inner.filterMap Step.callee? ++
            replies.flatMap Step.endpoints).eraseDups := eraseDups_append_congr inside _
      _ = (names ++ [target] ++ inner.filterMap Step.callee?).eraseDups :=
          eraseDups_append_of_subset old
      _ = (names ++ (opening :: (inner ++ replies)).filterMap Step.callee?).eraseDups := by
          simp [targets]
  · intro subject text member
    -- A note is neither the call nor a reply, since it has no ends.
    have deeper : .note subject text ∈ inner := by
      rcases List.mem_cons.mp member with rfl | member
      · cases ends
      · rcases List.mem_append.mp member with deeper | last
        · exact deeper
        · cases (replied _ last).1
    right
    rw [targets, List.mem_cons]
    exact body.notes subject text deeper

end CallsIn

mutual

/-- What is drawn while a party holds control brings in others by calls only. -/
theorem Body.callsIn {model : CodeModel} {party : String} {steps : List Step} :
    Body model party steps → CallsIn party steps
  | .note party text => .note party text
  | .items _ _ items => .flatten fun part member => (items part member).callsIn

-- A construction and a lone call have nothing drawn inside, and a lone call has no reply either.
theorem Item.callsIn {model : CodeModel} {party : String} {steps : List Step} :
    Item model party steps → CallsIn party steps
  | .construction _ _ => .call rfl rfl (.nil _) (by simp [Step.endpoints, Step.callee?])
  | .lone _ _ _ => .call rfl rfl (.nil _) (by simp)
  | .expanded _ _ _ body => .call rfl rfl body.callsIn (by simp [Step.endpoints, Step.callee?])

end

theorem callsIn_entrySteps (model : CodeModel) (options : WalkOptions)
    (path : List (String × String)) (className : String) (entry : MethodRecord) :
    CallsIn client (entrySteps model options path className entry) :=
  .call rfl rfl (expansion_body model _ path entry className).callsIn
    (by simp [Step.endpoints, Step.callee?])

/-! ### Diagrams -/

/-- Whether the participants of a diagram are the ends of its messages, the source before the
target, where each first comes up. So each is declared once, none without a part in a message, and
no message has an end that is not declared. Beside a message, a note is over a participant too. -/
structure DeclaresEnds (diagram : SequenceDiagram) : Prop where
  listed : diagram.participants.toList = (diagram.steps.toList.flatMap Step.endpoints).eraseDups
  once : diagram.participants.toList.Nodup
  takesPart : ∀ name, name ∈ diagram.participants ↔
    ∃ source target arrow label, .message source target arrow label ∈ diagram.steps ∧
      (name = source ∨ name = target)
  notes : (∃ source target arrow label, .message source target arrow label ∈ diagram.steps) →
    ∀ subject text, .note subject text ∈ diagram.steps → subject ∈ diagram.participants

theorem mem_endpoints_iff {steps : List Step} {name : String} :
    name ∈ steps.flatMap Step.endpoints ↔
      ∃ source target arrow label, .message source target arrow label ∈ steps ∧
        (name = source ∨ name = target) := by
  rw [List.mem_flatMap]
  constructor
  · rintro ⟨step, member, ends⟩
    cases step with
    | message source target arrow label =>
      exact ⟨source, target, arrow, label, member, by simpa [Step.endpoints] using ends⟩
    | note | «break» => cases ends
  · rintro ⟨source, target, arrow, label, member, ends⟩
    exact ⟨_, member, by simpa [Step.endpoints] using ends⟩

namespace DeclaresEnds

theorem of_listed {diagram : SequenceDiagram}
    (listed : diagram.participants.toList =
      (diagram.steps.toList.flatMap Step.endpoints).eraseDups)
    (notes : (∃ source target arrow label, .message source target arrow label ∈ diagram.steps) →
      ∀ subject text, .note subject text ∈ diagram.steps → subject ∈ diagram.participants) :
    DeclaresEnds diagram := by
  refine ⟨listed, ?_, fun name => ?_, notes⟩
  · rw [listed]
    exact nodup_eraseDups _
  · rw [← Array.mem_toList_iff, listed, List.mem_eraseDups, mem_endpoints_iff]
    simp only [Array.mem_toList_iff]

/-- A note alone declares nobody. -/
theorem note (subject text : String) : DeclaresEnds { steps := #[.note subject text] } := by
  apply of_listed
  · rfl
  · rintro ⟨source, target, arrow, label, member⟩
    simp at member

/-- Steps that begin with a message of the client and bring in others by calls, drawn beside the
client. -/
theorem draw {steps : List Step} (calls : CallsIn client steps) {rest : List String}
    (start : steps.flatMap Step.endpoints = client :: rest) :
    DeclaresEnds (SequenceDiagram.draw { participants := #[client] } steps) := by
  have drawn : (SequenceDiagram.draw { participants := #[client] } steps).steps.toList = steps := by
    simp [SequenceDiagram.steps_draw]
  have participants := SequenceDiagram.participants_draw_client steps
  apply of_listed
  · -- The client is declared before the first message, and it is the first end of that message.
    have twice := eraseDups_append_append_of_subset (List.Subset.refl [client]) rest
    have ends := calls.ends [client] (by simp)
    rw [start] at ends
    rw [drawn, participants, start]
    exact (twice.symm.trans ends).symm
  · intro _ subject text member
    rw [← Array.mem_toList_iff, drawn] at member
    rw [← Array.mem_toList_iff, participants, List.mem_eraseDups, List.mem_cons]
    exact calls.notes subject text member

end DeclaresEnds

/-- The participants of every diagram are the ends of its messages in order of first appearance. -/
theorem traces_declareEnds (model : CodeModel) (options : WalkOptions) :
    (∀ className methodName, DeclaresEnds (traceEntry model className methodName options)) ∧
      DeclaresEnds (traceAllEntries model options) := by
  constructor
  · intro className methodName
    cases found : model.findMethod className methodName with
    | none =>
      rw [traceEntry_of_missing options found]
      exact .note className _
    | some entry =>
      rw [traceEntry_eq_draw options found]
      exact .draw (callsIn_entrySteps model options [] className entry) rfl
  · cases selected : selectedEntries model options with
    | nil =>
      rw [traceAllEntries_of_none selected]
      exact .note client _
    | cons first rest =>
      rw [traceAllEntries_eq_draw (by simp [selected])]
      have start : ∃ names, ((selectedEntries model options).flatMap fun entry =>
          (entryAlone model options entry).steps.toList ++ [.break]).flatMap Step.endpoints =
            client :: names := by
        rw [selected, List.flatMap_cons, steps_entryAlone]
        exact ⟨_, rfl⟩
      obtain ⟨names, start⟩ := start
      apply DeclaresEnds.draw _ start
      rw [List.flatMap_def]
      -- The client opens every entry, and the gap behind an entry has no ends.
      apply CallsIn.flatten
      intro part member
      obtain ⟨entry, _, rfl⟩ := List.mem_map.mp member
      rw [steps_entryAlone]
      exact (callsIn_entrySteps model options [] entry.owner entry).append (.of_break client)

end JavaDiagram
