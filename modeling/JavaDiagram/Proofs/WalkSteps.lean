import JavaDiagram.Diagram.Walk

/-!
# The steps of a walk

A walk carries what it has drawn and the methods it has open. What it draws next depends only on
the open methods, so an expansion has a closed form: a list of steps, drawn one after the other.
Properties of diagrams are proved about that list, by recursion on the depth that is left.
-/

namespace JavaDiagram

/-- The participant that a step brings in: the target of a call message. -/
def Step.callee? : Step → Option String
  | .message _ target .activate _ => some target
  | .message _ target .call _ => some target
  | _ => none

namespace SequenceDiagram

/-- Draws a step; the target of a call becomes a participant first. -/
def drawStep (diagram : SequenceDiagram) (step : Step) : SequenceDiagram :=
  ((step.callee?.map diagram.addParticipant).getD diagram).addStep step

/-- Draws several steps in order. -/
def draw (diagram : SequenceDiagram) (steps : List Step) : SequenceDiagram :=
  steps.foldl drawStep diagram

theorem draw_append (diagram : SequenceDiagram) (front back : List Step) :
    diagram.draw (front ++ back) = (diagram.draw front).draw back :=
  List.foldl_append

@[simp] theorem steps_addParticipant (diagram : SequenceDiagram) (name : String) :
    (diagram.addParticipant name).steps = diagram.steps := by
  unfold addParticipant
  split <;> rfl

theorem mem_addParticipant (diagram : SequenceDiagram) (name other : String) :
    other ∈ (diagram.addParticipant name).participants ↔
      other = name ∨ other ∈ diagram.participants := by
  unfold addParticipant
  split
  next known =>
    have member : name ∈ diagram.participants := by simpa using known
    constructor
    · exact Or.inr
    · rintro (rfl | old)
      · exact member
      · exact old
  next => simp [or_comm]

theorem steps_drawStep (diagram : SequenceDiagram) (step : Step) :
    (diagram.drawStep step).steps = diagram.steps.push step := by
  unfold drawStep
  cases step.callee? <;> simp [addStep]

theorem mem_drawStep (diagram : SequenceDiagram) (step : Step) (name : String) :
    name ∈ (diagram.drawStep step).participants ↔
      step.callee? = some name ∨ name ∈ diagram.participants := by
  unfold drawStep
  cases step.callee? with
  | none => simp [addStep]
  | some target => simp [addStep, mem_addParticipant, eq_comm (a := name)]

/-- Drawing appends the steps as they are. -/
theorem steps_draw (diagram : SequenceDiagram) (steps : List Step) :
    (diagram.draw steps).steps.toList = diagram.steps.toList ++ steps := by
  induction steps generalizing diagram with
  | nil => simp [draw]
  | cons step rest ih =>
    have drawn := ih (diagram.drawStep step)
    rw [steps_drawStep, Array.toList_push, List.append_assoc] at drawn
    exact drawn

/-- Drawing brings in the targets of the call messages and nobody else. -/
theorem mem_draw (diagram : SequenceDiagram) (steps : List Step) (name : String) :
    name ∈ (diagram.draw steps).participants ↔
      name ∈ diagram.participants ∨ ∃ step ∈ steps, step.callee? = some name := by
  induction steps generalizing diagram with
  | nil => simp [draw]
  | cons step rest ih =>
    have drawn := ih (diagram.drawStep step)
    rw [mem_drawStep] at drawn
    rw [show diagram.draw (step :: rest) = (diagram.drawStep step).draw rest from rfl, drawn]
    simp only [List.mem_cons, exists_eq_or_imp]
    rw [or_assoc, or_left_comm]

end SequenceDiagram

/-- Draws several steps in order; the open methods stay as they are. -/
def Walk.draw (walk : Walk) (steps : List Step) : Walk :=
  { walk with diagram := walk.diagram.draw steps }

namespace Walk

theorem draw_append (walk : Walk) (front back : List Step) :
    walk.draw (front ++ back) = (walk.draw front).draw back := by
  simp only [draw, SequenceDiagram.draw_append]

/-- A method that was opened before drawing is closed again after it. -/
theorem leave_draw_enter (walk : Walk) (key : String × String) (steps : List Step) :
    ((walk.enter key).draw steps).leave key = walk.draw steps := by
  simp [enter, leave, draw]

end Walk

/-- The message of a call that is shown. -/
def CallRecord.message (model : CodeModel) (caller : String) (call : CallRecord) : Step :=
  if call.kind = .construction then
    .message caller call.target .activate ("new " ++ call.member ++ "()")
  else
    .message caller call.target .call (call.label (model.findMethod call.target call.member))

/-- What follows the message of a call: a construction is answered at once, a known method is
expanded and then answered, an unknown one leaves no trace. -/
def CallRecord.answer (model : CodeModel) (expandCallee : MethodRecord → String → List Step)
    (caller : String) (call : CallRecord) : List Step :=
  if call.kind = .construction then [.message call.target caller .reply "new instance"]
  else
    match model.findMethod call.target call.member with
    | none => []
    | some method =>
      expandCallee method call.target ++ [.message call.target caller .reply method.replyLabel]

/-- All steps of one call of a method. -/
def callSteps (model : CodeModel) (expandCallee : MethodRecord → String → List Step)
    (caller : String) (call : CallRecord) : List Step :=
  if call.isShown model caller then
    call.message model caller :: call.answer model expandCallee caller
  else []

/-- All steps of an expansion inside the methods of `path`. -/
def expansion (model : CodeModel) :
    (remaining : Nat) → (path : List (String × String)) → MethodRecord → (caller : String) →
      List Step
  | 0, _, _, caller => [.note caller depthNote]
  | remaining + 1, path, method, caller =>
    if path.contains method.key then [.note caller (repeatNote method.name)]
    else
      method.calls.flatMap
        (callSteps model (expansion model remaining (method.key :: path)) caller)

theorem expansion_of_mem {model : CodeModel} {remaining : Nat} {path : List (String × String)}
    {method : MethodRecord} (caller : String) (repeated : method.key ∈ path) :
    expansion model (remaining + 1) path method caller =
      [.note caller (repeatNote method.name)] := by
  rw [expansion, if_pos (List.contains_iff_mem.mpr repeated)]

theorem expansion_of_not_mem {model : CodeModel} {remaining : Nat}
    {path : List (String × String)} {method : MethodRecord} (caller : String)
    (fresh : method.key ∉ path) :
    expansion model (remaining + 1) path method caller =
      method.calls.flatMap
        (callSteps model (expansion model remaining (method.key :: path)) caller) := by
  rw [expansion, if_neg (mt List.contains_iff_mem.mp fresh)]

/-- A step of a call is its message, its reply, or a step of the expansion of its method. -/
theorem callSteps_cases {model : CodeModel} {expandCallee : MethodRecord → String → List Step}
    {caller : String} {call : CallRecord} {step : Step}
    (member : step ∈ callSteps model expandCallee caller call) :
    call.isShown model caller = true ∧
      (step = call.message model caller ∨
        (∃ label, step = .message call.target caller .reply label) ∨
        ∃ callee, call.kind ≠ .construction ∧
          model.findMethod call.target call.member = some callee ∧
          step ∈ expandCallee callee call.target) := by
  unfold callSteps at member
  split at member
  next shown =>
    refine ⟨shown, ?_⟩
    rcases List.mem_cons.mp member with rfl | member
    · exact Or.inl rfl
    · right
      unfold CallRecord.answer at member
      split at member
      next => exact Or.inl ⟨"new instance", List.mem_singleton.mp member⟩
      next calls =>
        split at member
        next => cases member
        next callee found =>
          rcases List.mem_append.mp member with member | member
          · exact Or.inr ⟨callee, calls, found, member⟩
          · exact Or.inl ⟨callee.replyLabel, List.mem_singleton.mp member⟩
  next => cases member

/-- The steps of a call depend on the expansion of its own method only. -/
theorem callSteps_congr {model : CodeModel}
    {expandCallee expandCallee' : MethodRecord → String → List Step} {caller : String}
    {call : CallRecord}
    (agree : ∀ callee, model.findMethod call.target call.member = some callee →
      expandCallee callee call.target = expandCallee' callee call.target) :
    callSteps model expandCallee caller call = callSteps model expandCallee' caller call := by
  unfold callSteps CallRecord.answer
  cases found : model.findMethod call.target call.member with
  | none => rfl
  | some callee =>
    dsimp only
    rw [agree callee found]

/-- A step of an expansion is a note, or a step of one of the calls of its method. -/
theorem expansion_cases {model : CodeModel} {remaining : Nat} {path : List (String × String)}
    {method : MethodRecord} {caller : String} {step : Step}
    (member : step ∈ expansion model (remaining + 1) path method caller) :
    step = .note caller (repeatNote method.name) ∨
      ∃ call ∈ method.calls, step ∈ callSteps model
        (expansion model remaining (method.key :: path)) caller call := by
  unfold expansion at member
  split at member
  · exact Or.inl (List.mem_singleton.mp member)
  · exact Or.inr (List.mem_flatMap.mp member)

/-- All steps of an entry, from the client's call to its reply. -/
def entrySteps (model : CodeModel) (options : WalkOptions) (path : List (String × String))
    (className : String) (entry : MethodRecord) : List Step :=
  .message client className .activate (entry.name ++ "()") ::
    (expansion model options.clamped.maxDepth path entry className ++
      [.message className client .return entry.replyLabel])

/-- Drawing a call draws its steps, if this holds of the callee's expansion. -/
theorem drawCall_eq_draw (model : CodeModel) (expandCallee : MethodRecord → String → Walk → Walk)
    (expandSteps : MethodRecord → String → List Step) (caller : String) (walk : Walk)
    (expanded : ∀ method target (inner : Walk), inner.path = walk.path →
      expandCallee method target inner = inner.draw (expandSteps method target))
    (call : CallRecord) :
    drawCall model expandCallee caller walk call =
      walk.draw (callSteps model expandSteps caller call) := by
  unfold drawCall callSteps
  split
  next shown =>
    by_cases construction : call.kind = .construction
    · simp only [CallRecord.message, CallRecord.answer, construction, if_true]
      rfl
    · simp only [CallRecord.message, CallRecord.answer, construction, if_false]
      cases found : model.findMethod call.target call.member with
      | none => rfl
      | some method =>
        dsimp only
        -- Joining and sending leave the open methods alone, so the callee is drawn as supposed.
        have inner := expanded method call.target
          ((walk.join call.target).send caller call.target .call (call.label (some method))) rfl
        rw [inner, ← List.cons_append, Walk.draw_append]
        rfl
  next => rfl

/-- An expansion draws its steps and leaves the open methods as they were. -/
theorem expand_eq_draw (model : CodeModel) (remaining : Nat) (method : MethodRecord)
    (caller : String) (walk : Walk) :
    expand model remaining method caller walk =
      walk.draw (expansion model remaining walk.path method caller) := by
  induction remaining generalizing method caller walk with
  | zero => rfl
  | succ remaining ih =>
    unfold expand
    by_cases repeated : method.key ∈ walk.path
    · rw [if_pos repeated, expansion_of_mem caller repeated]
      rfl
    · rw [if_neg repeated, expansion_of_not_mem caller repeated]
      -- The open methods are the same before each call, so the calls can be drawn one by one.
      have calls (rest : List CallRecord) (inner : Walk)
          (opened : inner.path = method.key :: walk.path) :
          rest.foldl (drawCall model (expand model remaining) caller) inner =
            inner.draw (rest.flatMap
              (callSteps model (expansion model remaining (method.key :: walk.path)) caller)) := by
        induction rest generalizing inner with
        | nil => rfl
        | cons call rest tail =>
          have first := drawCall_eq_draw model (expand model remaining)
            (expansion model remaining (method.key :: walk.path)) caller inner
            (fun callee target walk same => by rw [ih, same, opened]) call
          rw [List.foldl_cons, first, tail (inner.draw _) opened, List.flatMap_cons,
            Walk.draw_append]
      rw [calls method.calls (walk.enter method.key) rfl, Walk.leave_draw_enter]

/-- Running an entry draws its steps and closes all methods. -/
theorem runEntry_eq_draw (model : CodeModel) (options : WalkOptions) (walk : Walk)
    (className : String) (entry : MethodRecord) :
    walk.runEntry model options className entry =
      { walk.draw (entrySteps model options walk.path className entry) with path := [] } := by
  unfold Walk.runEntry entrySteps
  dsimp only
  rw [expand_eq_draw, ← List.cons_append, Walk.draw_append, ← List.singleton_append,
    Walk.draw_append]
  rfl

theorem join_client : ({} : Walk).join client = { diagram := { participants := #[client] } } := by
  simp [Walk.join, SequenceDiagram.addParticipant]

/-- A known entry method is drawn beside the client, with nothing open. -/
theorem traceEntry_eq_draw {model : CodeModel} {className methodName : String}
    {entry : MethodRecord} (options : WalkOptions)
    (found : model.findMethod className methodName = some entry) :
    traceEntry model className methodName options =
      SequenceDiagram.draw { participants := #[client] }
        (entrySteps model options [] className entry) := by
  unfold traceEntry
  rw [found]
  dsimp only
  rw [runEntry_eq_draw, join_client]
  rfl

/-- An unknown method is answered by a note, whatever the options. -/
theorem traceEntry_of_missing {model : CodeModel} {className methodName : String}
    (options : WalkOptions) (missing : model.findMethod className methodName = none) :
    traceEntry model className methodName options =
      { steps := #[.note className ("Method '" ++ methodName ++ "' not found")] } := by
  unfold traceEntry
  rw [missing]
  rfl

end JavaDiagram
