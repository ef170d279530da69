import JavaDiagram.Proofs.WalkSteps

/-!
# Logged walks

What a walk has drawn tells neither which methods were open at a step nor which of them drew it. So
the walk is run with a log: each visit of a method is listed with the methods that are open around
it and with the path as it was found and as it was left, and each step with the method that is
expanded when it is drawn. Without its log a logged walk is the walk itself, so what holds of all
logged visits and steps holds of the walk.
-/

namespace JavaDiagram

/-- How the visit of a method ends. -/
inductive Ending where
  | cut
  | repeated
  | expanded
  deriving DecidableEq, Repr

/-- One visit of a method. The methods open around it are listed from the inside out. -/
structure Visit where
  method : MethodRecord
  depth : Nat
  opened : List MethodRecord
  ending : Ending
  before : List (String × String)
  after : List (String × String)
  deriving DecidableEq, Repr

/-- A walk with the visits it has made, with what was left on the path each time it was cleared at
the end of an entry, and with its steps. -/
structure LoggedWalk where
  walk : Walk := {}
  visits : List Visit := []
  cleared : List (List (String × String)) := []
  /-- The steps drawn so far, each with the method whose expansion draws it, if one does. -/
  drawn : List (Option MethodRecord × Step) := []
  deriving DecidableEq, Repr

namespace LoggedWalk

def act (log : LoggedWalk) (action : Walk → Walk) : LoggedWalk :=
  { log with walk := action log.walk }

/-- Draws a step in the expansion of a method, or outside of all. -/
def draw (log : LoggedWalk) (drawing : Option MethodRecord) (step : Step) : LoggedWalk :=
  { log with
    walk := { log.walk with diagram := log.walk.diagram.addStep step }
    drawn := log.drawn ++ [(drawing, step)] }

/-- Lists a visit that ends now and found the path as `before`. -/
def endVisit (log : LoggedWalk) (before : List (String × String)) (method : MethodRecord)
    (depth : Nat) (opened : List MethodRecord) (ending : Ending) : LoggedWalk :=
  { log with visits := log.visits ++ [⟨method, depth, opened, ending, before, log.walk.path⟩] }

end LoggedWalk

/-! ### Walking with a log

The definitions below follow `drawCall`, `expand`, `Walk.runEntry`, `traceEntry` and
`traceAllEntries` line by line. -/

def logCall (model : CodeModel)
    (expandCallee : MethodRecord → String → LoggedWalk → LoggedWalk) (method : MethodRecord)
    (caller : String) (log : LoggedWalk) (call : CallRecord) : LoggedWalk :=
  if call.isShown model caller then
    let log := log.act (·.join call.target)
    if call.kind = .construction then
      (log.draw method
        (.message caller call.target .activate ("new " ++ call.member ++ "()"))).draw method
          (.message call.target caller .reply "new instance")
    else
      let callee := model.findMethod call.target call.member
      let log := log.draw method (.message caller call.target .call (call.label callee))
      match callee with
      | none => log
      | some callee =>
        (expandCallee callee call.target log).draw method
          (.message call.target caller .reply callee.replyLabel)
  else log

/-- Draws what a method does, like `expand`, and lists the visit when it ends. The depth counts up
from one, and the method joins the open ones for the visits inside its own. -/
def logExpand (model : CodeModel) :
    (remaining depth : Nat) → (opened : List MethodRecord) → (method : MethodRecord) →
      (caller : String) → LoggedWalk → LoggedWalk
  | 0, depth, opened, method, caller, log =>
    (log.draw method (.note caller depthNote)).endVisit log.walk.path method depth opened .cut
  | remaining + 1, depth, opened, method, caller, log =>
    if log.walk.path.contains method.key then
      (log.draw method (.note caller (repeatNote method.name))).endVisit log.walk.path method depth
        opened .repeated
    else
      ((method.calls.foldl
          (logCall model (logExpand model remaining (depth + 1) (method :: opened)) method caller)
          (log.act (·.enter method.key))).act (·.leave method.key)).endVisit
        log.walk.path method depth opened .expanded

def LoggedWalk.runEntry (model : CodeModel) (options : WalkOptions) (log : LoggedWalk)
    (className : String) (entry : MethodRecord) : LoggedWalk :=
  let log := log.act (·.join className)
  let log := log.draw none (.message client className .activate (entry.name ++ "()"))
  let log := logExpand model options.clamped.maxDepth 1 [] entry className log
  let log := log.draw none (.message className client .return entry.replyLabel)
  { log with
    walk := { log.walk with path := [] }
    cleared := log.cleared ++ [log.walk.path] }

def logEntry (model : CodeModel) (className methodName : String) (options : WalkOptions) :
    LoggedWalk :=
  match model.findMethod className methodName with
  | none => ({} : LoggedWalk).draw none (.note className ("Method '" ++ methodName ++ "' not found"))
  | some entry =>
    (({} : LoggedWalk).act (·.join client)).runEntry model options className entry

def logAllEntries (model : CodeModel) (options : WalkOptions) : LoggedWalk :=
  match entryMethods model options.maxEntries with
  | [] => ({} : LoggedWalk).draw none (.note client "No public methods found to display")
  | entries =>
    entries.foldl
      (fun log entry => (log.runEntry model options entry.owner entry).draw none .break)
      (({} : LoggedWalk).act (·.join client))

/-! ### Leaving out the log -/

theorem walk_logCall (model : CodeModel) (expandCallee : MethodRecord → String → Walk → Walk)
    (logCallee : MethodRecord → String → LoggedWalk → LoggedWalk)
    (agree : ∀ method target log,
      (logCallee method target log).walk = expandCallee method target log.walk)
    (method : MethodRecord) (caller : String) (log : LoggedWalk) (call : CallRecord) :
    (logCall model logCallee method caller log call).walk =
      drawCall model expandCallee caller log.walk call := by
  unfold logCall drawCall
  split
  · split
    · rfl
    · cases model.findMethod call.target call.member with
      | none => rfl
      | some callee =>
        simp only [LoggedWalk.draw, agree]
        rfl
  · rfl

theorem walk_logExpand (model : CodeModel) (remaining depth : Nat) (opened : List MethodRecord)
    (method : MethodRecord) (caller : String) (log : LoggedWalk) :
    (logExpand model remaining depth opened method caller log).walk =
      expand model remaining method caller log.walk := by
  induction remaining generalizing depth opened method caller log with
  | zero => rfl
  | succ remaining ih =>
    unfold logExpand expand
    by_cases repeated : method.key ∈ log.walk.path
    · rw [if_pos (List.contains_iff_mem.mpr repeated), if_pos repeated]
      rfl
    -- The hypothesis is about one callee; the loop over the calls needs an induction of its own.
    · rw [if_neg (mt List.contains_iff_mem.mp repeated), if_neg repeated]
      have calls (rest : List CallRecord) (inner : LoggedWalk) :
          (rest.foldl (logCall model (logExpand model remaining (depth + 1) (method :: opened))
            method caller) inner).walk =
            rest.foldl (drawCall model (expand model remaining) caller) inner.walk := by
        induction rest generalizing inner with
        | nil => rfl
        | cons call rest tail =>
          rw [List.foldl_cons, tail, List.foldl_cons]
          rw [walk_logCall model (expand model remaining) _ (ih (depth + 1) (method :: opened))]
      simp only [LoggedWalk.endVisit, LoggedWalk.act, calls]

theorem walk_runEntry (model : CodeModel) (options : WalkOptions) (log : LoggedWalk)
    (className : String) (entry : MethodRecord) :
    (log.runEntry model options className entry).walk =
      log.walk.runEntry model options className entry := by
  simp only [LoggedWalk.runEntry, Walk.runEntry, LoggedWalk.draw, walk_logExpand]
  rfl

theorem diagram_logEntry (model : CodeModel) (className methodName : String)
    (options : WalkOptions) :
    (logEntry model className methodName options).walk.diagram =
      traceEntry model className methodName options := by
  unfold logEntry traceEntry
  cases model.findMethod className methodName with
  | none => rfl
  | some entry =>
    dsimp only
    rw [walk_runEntry]
    rfl

theorem diagram_logAllEntries (model : CodeModel) (options : WalkOptions) :
    (logAllEntries model options).walk.diagram = traceAllEntries model options := by
  unfold logAllEntries traceAllEntries
  cases entryMethods model options.maxEntries with
  | nil => rfl
  | cons first others =>
    have run (rest : List MethodRecord) (log : LoggedWalk) :
        (rest.foldl (fun log entry =>
          (log.runEntry model options entry.owner entry).draw none .break) log).walk =
          rest.foldl (fun walk entry =>
            let walk := walk.runEntry model options entry.owner entry
            { walk with diagram := walk.diagram.addStep .break }) log.walk := by
      induction rest generalizing log with
      | nil => rfl
      | cons entry rest tail =>
        rw [List.foldl_cons, tail, List.foldl_cons]
        simp only [LoggedWalk.draw, walk_runEntry]
    dsimp only
    rw [run]
    rfl

/-! ### What all logged walks keep -/

namespace LoggedWalk

/-- Whether whatever an expansion does to a logged walk keeps a property of it. -/
structure IsKept (holds : LoggedWalk → Prop) : Prop where
  join : ∀ log name, holds log → holds (log.act (·.join name))
  enter : ∀ log key, holds log → holds (log.act (·.enter key))
  leave : ∀ log key, holds log → holds (log.act (·.leave key))
  draw : ∀ log drawing step, holds log → holds (log.draw drawing step)
  endVisit : ∀ log before method depth opened ending, holds log →
    holds (log.endVisit before method depth opened ending)

namespace IsKept

variable {holds : LoggedWalk → Prop} {log : LoggedWalk}

theorem call (kept : IsKept holds) (model : CodeModel)
    {expandCallee : MethodRecord → String → LoggedWalk → LoggedWalk}
    (callees : ∀ method target inner, holds inner → holds (expandCallee method target inner))
    (method : MethodRecord) (caller : String) (here : holds log) (call : CallRecord) :
    holds (logCall model expandCallee method caller log call) := by
  unfold logCall
  split
  next =>
    have joined := kept.join log call.target here
    split
    next => exact kept.draw _ _ _ (kept.draw _ _ _ joined)
    next =>
      cases model.findMethod call.target call.member with
      | none => exact kept.draw _ _ _ joined
      | some callee => exact kept.draw _ _ _ (callees _ _ _ (kept.draw _ _ _ joined))
  next => exact here

theorem calls (kept : IsKept holds) (model : CodeModel)
    {expandCallee : MethodRecord → String → LoggedWalk → LoggedWalk}
    (callees : ∀ method target inner, holds inner → holds (expandCallee method target inner))
    (method : MethodRecord) (caller : String) (here : holds log) (calls : List CallRecord) :
    holds (calls.foldl (logCall model expandCallee method caller) log) :=
  List.foldlRecOn calls _ here fun _ here call _ => kept.call model callees method caller here call

theorem expand (kept : IsKept holds) (model : CodeModel) (remaining depth : Nat)
    (opened : List MethodRecord) (method : MethodRecord) (caller : String) (here : holds log) :
    holds (logExpand model remaining depth opened method caller log) := by
  induction remaining generalizing depth opened method caller log with
  | zero => exact kept.endVisit _ _ _ _ _ _ (kept.draw _ _ _ here)
  | succ remaining ih =>
    unfold logExpand
    split
    next => exact kept.endVisit _ _ _ _ _ _ (kept.draw _ _ _ here)
    next =>
      have inside := kept.calls model (fun callee target inner => ih (depth + 1) (method :: opened)
        callee target) method caller (kept.enter log method.key here) method.calls
      exact kept.endVisit _ _ _ _ _ _ (kept.leave _ _ inside)

end IsKept

/-! ### The steps in the log -/

/-- Whether the steps of a logged walk are those of its diagram. -/
def ListsSteps (log : LoggedWalk) : Prop :=
  log.walk.diagram.steps.toList = log.drawn.map (·.2)

theorem ListsSteps.draw {log : LoggedWalk} (lists : log.ListsSteps) (drawing : Option MethodRecord)
    (step : Step) : (log.draw drawing step).ListsSteps := by
  rw [ListsSteps, LoggedWalk.draw, List.map_append, ← lists]
  exact Array.toList_push

theorem ListsSteps.join {log : LoggedWalk} (lists : log.ListsSteps) (name : String) :
    (log.act (·.join name)).ListsSteps :=
  (congrArg Array.toList (SequenceDiagram.steps_addParticipant _ name)).trans lists

theorem isKept_listsSteps : IsKept ListsSteps where
  join _ name lists := lists.join name
  enter _ _ lists := lists
  leave _ _ lists := lists
  draw _ drawing step lists := lists.draw drawing step
  endVisit _ _ _ _ _ _ lists := lists

theorem ListsSteps.entry {log : LoggedWalk} (lists : log.ListsSteps) (model : CodeModel)
    (options : WalkOptions) (className : String) (entry : MethodRecord) :
    (log.runEntry model options className entry).ListsSteps := by
  have called := (lists.join className).draw none
    (.message client className .activate (entry.name ++ "()"))
  have inside := isKept_listsSteps.expand model options.clamped.maxDepth 1 [] entry className called
  exact inside.draw none (.message className client .return entry.replyLabel)

end LoggedWalk

open LoggedWalk

theorem steps_logEntry (model : CodeModel) (className methodName : String)
    (options : WalkOptions) :
    (traceEntry model className methodName options).steps.toList =
      (logEntry model className methodName options).drawn.map (·.2) := by
  have start : ({} : LoggedWalk).ListsSteps := rfl
  rw [← diagram_logEntry]
  unfold logEntry
  split
  next => exact start.draw none _
  next entry _ => exact (start.join client).entry model options className entry

theorem steps_logAllEntries (model : CodeModel) (options : WalkOptions) :
    (traceAllEntries model options).steps.toList =
      (logAllEntries model options).drawn.map (·.2) := by
  have start : ({} : LoggedWalk).ListsSteps := rfl
  rw [← diagram_logAllEntries]
  unfold logAllEntries
  split
  next => exact start.draw none _
  next =>
    exact List.foldlRecOn (motive := ListsSteps) _ _ (start.join client) fun log lists entry _ =>
      (lists.entry model options entry.owner entry).draw none .break

end JavaDiagram
