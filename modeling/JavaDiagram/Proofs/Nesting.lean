import JavaDiagram.Proofs.WalkSteps

/-!
# Calls and replies nest

In a sequence every message is sent by the party that holds control. An expansion is a word of a
small grammar: a call hands control to its target, the body of the target follows, and a reply
hands control back. Only the entry itself opens and closes an activation that lasts.
-/

namespace JavaDiagram

/-- The arrow of a message. -/
def Step.arrow? : Step → Option Arrow
  | .message _ _ arrow _ => some arrow
  | _ => none

/-- The two labels of a call message: plain and static. -/
def IsCallLabel (member label : String) : Prop :=
  label = member ++ "()" ∨ label = member ++ "() [static]"

mutual

/-- What is drawn while `party` holds control: a note, or items one after the other. -/
inductive Body (model : CodeModel) : (party : String) → List Step → Prop where
  | note (party text : String) : Body model party [.note party text]
  | items (party : String) (parts : List (List Step)) :
      (∀ part ∈ parts, Item model party part) → Body model party parts.flatten

/-- One call of `party`. A resolved call encloses the body of its target and ends with the reply of
the method it resolves to; an unresolved call stands alone. -/
inductive Item (model : CodeModel) : (party : String) → List Step → Prop where
  | construction {party target : String} (name : String) : target ≠ party →
      Item model party [.message party target .activate ("new " ++ name ++ "()"),
        .message target party .reply "new instance"]
  | lone {party target member label : String} : target ≠ party → IsCallLabel member label →
      model.findMethod target member = none →
      Item model party [.message party target .call label]
  | expanded {party target member label : String} {callee : MethodRecord} {inner : List Step} :
      target ≠ party → IsCallLabel member label →
      model.findMethod target member = some callee → Body model target inner →
      Item model party (.message party target .call label ::
        (inner ++ [.message target party .reply callee.replyLabel]))

end

/-! ### The grammar of an expansion -/

theorem CallRecord.target_ne_of_isShown {model : CodeModel} {caller : String} {call : CallRecord}
    (shown : call.isShown model caller = true) : call.target ≠ caller := by
  simp only [CallRecord.isShown, Bool.and_eq_true, bne_iff_ne] at shown
  exact shown.1.2

theorem CallRecord.isCallLabel_label (call : CallRecord) (callee : Option MethodRecord) :
    IsCallLabel call.member (call.label callee) := by
  unfold CallRecord.label
  split
  · exact Or.inr rfl
  · exact Or.inl rfl

/-- A call draws nothing or one item, if the expansion of its callee is a body. -/
theorem callSteps_item (model : CodeModel) (expandCallee : MethodRecord → String → List Step)
    (body : ∀ method party, Body model party (expandCallee method party))
    (caller : String) (call : CallRecord) (drawn : callSteps model expandCallee caller call ≠ []) :
    Item model caller (callSteps model expandCallee caller call) := by
  unfold callSteps at drawn ⊢
  split at drawn
  next shown =>
    have apart := CallRecord.target_ne_of_isShown shown
    rw [if_pos shown]
    -- A construction is answered at once; a call is expanded if its method is found.
    by_cases construction : call.kind = .construction
    · simp only [CallRecord.message, CallRecord.answer, construction, if_true]
      exact .construction call.member apart
    · simp only [CallRecord.message, CallRecord.answer, construction, if_false]
      have label := call.isCallLabel_label (model.findMethod call.target call.member)
      cases found : model.findMethod call.target call.member with
      | none =>
        rw [found] at label
        exact .lone apart label found
      | some method =>
        rw [found] at label
        exact .expanded apart label found (body method call.target)
  next => exact absurd rfl drawn

/-- Every expansion is a body of the party on whose behalf it is drawn. -/
theorem expansion_body (model : CodeModel) (remaining : Nat) (path : List (String × String))
    (method : MethodRecord) (caller : String) :
    Body model caller (expansion model remaining path method caller) := by
  induction remaining generalizing path method caller with
  | zero => exact .note caller depthNote
  | succ remaining ih =>
    unfold expansion
    split
    · exact .note caller (repeatNote method.name)
    · -- A call that is not drawn gives no steps and is no item, so it is left out first.
      rw [List.flatMap_def, ← List.flatten_filter_ne_nil]
      apply Body.items
      intro part member
      obtain ⟨member, drawn⟩ := List.mem_filter.mp member
      obtain ⟨call, _, rfl⟩ := List.mem_map.mp member
      exact callSteps_item model _ (ih (method.key :: path)) caller call (by simpa using drawn)

/-! ### Closing arrows -/

theorem CallRecord.message_arrow_ne_return (model : CodeModel) (caller : String) (call : CallRecord) :
    (call.message model caller).arrow? ≠ some .return := by
  unfold CallRecord.message
  split <;> simp [Step.arrow?]

/-- No step of an expansion closes an activation. -/
theorem expansion_arrow_ne_return (model : CodeModel) (remaining : Nat)
    (path : List (String × String)) (method : MethodRecord) (caller : String) :
    ∀ step ∈ expansion model remaining path method caller, step.arrow? ≠ some .return := by
  intro step member
  induction remaining generalizing path method caller with
  | zero =>
    obtain rfl := List.mem_singleton.mp member
    simp [Step.arrow?]
  | succ remaining ih =>
    rcases expansion_cases member with rfl | ⟨call, _, member⟩
    · simp [Step.arrow?]
    · obtain ⟨_, member⟩ := callSteps_cases member
      rcases member with rfl | ⟨label, rfl⟩ | ⟨callee, _, _, member⟩
      · exact call.message_arrow_ne_return model caller
      · simp [Step.arrow?]
      · exact ih _ callee call.target member

/-! ### Entries -/

/-- Whether steps are the client's call, a body of the entry's class and the one reply that closes
an activation. -/
def WellNested (model : CodeModel) (className : String) (entry : MethodRecord)
    (steps : List Step) : Prop :=
  ∃ body : List Step,
    steps = .message client className .activate (entry.name ++ "()") ::
      (body ++ [.message className client .return entry.replyLabel]) ∧
    Body model className body ∧
    ∀ step ∈ Step.message client className .activate (entry.name ++ "()") :: body,
      step.arrow? ≠ some .return

/-- The sequence of every entry is well nested. -/
theorem traceEntry_wellNested (model : CodeModel) (options : WalkOptions)
    {className methodName : String} {entry : MethodRecord}
    (found : model.findMethod className methodName = some entry) :
    WellNested model className entry
      (traceEntry model className methodName options).steps.toList := by
  refine ⟨expansion model options.clamped.maxDepth [] entry className, ?_, ?_, ?_⟩
  · rw [traceEntry_eq_draw options found, SequenceDiagram.steps_draw]
    rfl
  · exact expansion_body model _ [] entry className
  · intro step member
    rcases List.mem_cons.mp member with rfl | member
    · simp [Step.arrow?]
    · exact expansion_arrow_ne_return model _ [] entry className step member

/-- A method that constructs a payment and has it charged. -/
def placing : MethodRecord where
  owner := "Order"
  name := "place"
  returnType := "void"
  calls := [⟨"Payment", "Payment", .construction, 3⟩, ⟨"Payment", "charge", .onInstance, 4⟩]

/-- A method that calls back, and calls a method nobody declares. -/
def charging : MethodRecord where
  owner := "Payment"
  name := "charge"
  returnType := "boolean"
  calls := [⟨"Order", "place", .onInstance, 9⟩, ⟨"Order", "close", .onClass, 10⟩]

/-- Two classes whose methods call each other. -/
def shop : CodeModel where
  classes := ⟨[("Order", { name := "Order" }), ("Payment", { name := "Payment" })]⟩
  methods := ⟨[("Order", [placing]), ("Payment", [charging])]⟩

theorem wellNested_place :
    shop.findMethod "Order" "place" = some placing ∧
      WellNested shop "Order" placing (traceEntry shop "Order" "place" {}).steps.toList :=
  ⟨by decide, traceEntry_wellNested shop {} (by decide)⟩

end JavaDiagram
