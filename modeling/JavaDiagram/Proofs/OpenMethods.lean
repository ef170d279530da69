import JavaDiagram.Proofs.LoggedWalk

/-!
# Open methods

The path of a walk is changed around every expansion and shared by all of them. The log of a walk
tells what it holds whenever a method is visited: the keys of the open methods and nothing else, so
its length is the depth.
-/

namespace JavaDiagram

/-! ### Visits on the path -/

/-- What a visit knows of the path when at most `limit` methods may be open: it holds the keys of
the open methods, without repetition, and their number is one less than the depth. The visit is cut
beyond the limit, and otherwise expands its method unless the method is open already. However it
ends, it leaves the path as it was. -/
structure Visit.OnPath (limit : Nat) (visit : Visit) : Prop where
  before : visit.before = visit.opened.map (·.key)
  distinct : visit.before.Nodup
  depth : visit.depth = visit.before.length + 1
  bounded : visit.depth ≤ limit + 1
  ending : visit.ending =
    if limit < visit.depth then .cut
    else if visit.method.key ∈ visit.before then .repeated
    else .expanded
  after : visit.after = visit.before

/-- No expansion is inside another one of the same method, and at most `limit` are nested. -/
theorem Visit.OnPath.nested {limit : Nat} {visit : Visit} (on_path : visit.OnPath limit)
    (expanded : visit.ending = .expanded) :
    visit.method.key ∉ visit.opened.map (·.key) ∧ visit.opened.length + 1 ≤ limit := by
  have ending := on_path.ending
  have depth := on_path.depth
  rw [expanded, on_path.before] at ending
  rw [on_path.before, List.length_map] at depth
  -- Of the three endings only the last one is an expansion.
  split at ending
  next => cases ending
  next within =>
    split at ending
    next => cases ending
    next fresh => exact ⟨fresh, by omega⟩

namespace LoggedWalk

/-- A logged walk that is at `path`: all visits so far were on the path, and every entry so far
ended with an empty one. -/
structure OnPath (limit : Nat) (path : List (String × String)) (log : LoggedWalk) : Prop where
  visits : ∀ visit ∈ log.visits, visit.OnPath limit
  cleared : ∀ left ∈ log.cleared, left = []
  here : log.walk.path = path

variable {limit : Nat} {path : List (String × String)} {log : LoggedWalk}

theorem onPath_start (limit : Nat) : OnPath limit [] {} :=
  ⟨fun _ member => absurd member List.not_mem_nil, fun _ member => absurd member List.not_mem_nil,
    rfl⟩

theorem OnPath.act (on_path : log.OnPath limit path) (action : Walk → Walk)
    {path' : List (String × String)} (moved : (action log.walk).path = path') :
    (log.act action).OnPath limit path' :=
  ⟨on_path.visits, on_path.cleared, moved⟩

theorem OnPath.draw (on_path : log.OnPath limit path) (drawing : Option MethodRecord)
    (step : Step) : (log.draw drawing step).OnPath limit path :=
  ⟨on_path.visits, on_path.cleared, on_path.here⟩

theorem OnPath.endVisit (on_path : log.OnPath limit path) {before : List (String × String)}
    {method : MethodRecord} {depth : Nat} {opened : List MethodRecord} {ending : Ending}
    (visit : Visit.OnPath limit ⟨method, depth, opened, ending, before, path⟩) :
    (log.endVisit before method depth opened ending).OnPath limit path := by
  refine ⟨fun other member => ?_, on_path.cleared, on_path.here⟩
  rcases List.mem_append.mp member with member | member
  · exact on_path.visits other member
  · rw [List.mem_singleton.mp member, on_path.here]
    exact visit

theorem OnPath.call {model : CodeModel}
    {expandCallee : MethodRecord → String → LoggedWalk → LoggedWalk}
    (callees : ∀ method target (inner : LoggedWalk), inner.OnPath limit path →
      (expandCallee method target inner).OnPath limit path)
    (on_path : log.OnPath limit path) (method : MethodRecord) (caller : String)
    (call : CallRecord) : (logCall model expandCallee method caller log call).OnPath limit path := by
  unfold logCall
  split
  next =>
    have joined := on_path.act (·.join call.target) on_path.here
    split
    next => exact (joined.draw _ _).draw _ _
    next =>
      cases model.findMethod call.target call.member with
      | none => exact joined.draw _ _
      | some callee => exact (callees callee call.target _ (joined.draw _ _)).draw _ _
  next => exact on_path

/-- An expansion that starts at the keys of the open methods stays there, and all its visits are on
the path. -/
theorem OnPath.expand (model : CodeModel) {remaining : Nat} (opened : List MethodRecord)
    (method : MethodRecord) (caller : String) (on_path : log.OnPath limit (opened.map (·.key)))
    (distinct : (opened.map (·.key)).Nodup) (left : opened.length + remaining = limit) :
    (logExpand model remaining (opened.length + 1) opened method caller log).OnPath limit
      (opened.map (·.key)) := by
  have depth : opened.length + 1 = (opened.map (·.key)).length + 1 := by rw [List.length_map]
  induction remaining generalizing opened method caller log with
  | zero =>
    unfold logExpand
    rw [on_path.here]
    apply (on_path.draw _ _).endVisit
    have beyond : limit < opened.length + 1 := by omega
    exact ⟨rfl, distinct, depth, Nat.le_of_eq (congrArg (· + 1) left), by rw [if_pos beyond], rfl⟩
  | succ remaining ih =>
    have within : ¬ limit < opened.length + 1 := by omega
    have bounded : opened.length + 1 ≤ limit + 1 := by omega
    unfold logExpand
    rw [on_path.here]
    by_cases repeated : method.key ∈ opened.map (·.key)
    -- A method that is open already is left alone: its key belongs to the visit that opened it.
    · rw [if_pos (List.contains_iff_mem.mpr repeated)]
      apply (on_path.draw _ _).endVisit
      exact ⟨rfl, distinct, depth, bounded, by rw [if_neg within, if_pos repeated], rfl⟩
    · rw [if_neg (mt List.contains_iff_mem.mp repeated)]
      -- Between its calls the walk is at the path that the method was opened with.
      have entered : (log.act (·.enter method.key)).OnPath limit ((method :: opened).map (·.key)) :=
        on_path.act _ (congrArg (method.key :: ·) on_path.here)
      have inside : (method.calls.foldl
          (logCall model (logExpand model remaining (opened.length + 1 + 1) (method :: opened))
            method caller)
          (log.act (·.enter method.key))).OnPath limit ((method :: opened).map (·.key)) := by
        apply List.foldlRecOn (motive := OnPath limit ((method :: opened).map (·.key)))
        · exact entered
        · intro inner on_path' call _
          apply on_path'.call
          intro callee target deeper on_path''
          have distinct' : ((method :: opened).map (·.key)).Nodup :=
            List.nodup_cons.mpr ⟨repeated, distinct⟩
          exact ih (method :: opened) callee target on_path'' distinct'
            (by rw [List.length_cons]; omega) (by rw [List.length_map])
      -- Leaving takes away the first key, which is the one that entering put there.
      apply OnPath.endVisit
      · apply inside.act
        show (Walk.path _).erase method.key = _
        rw [inside.here]
        exact List.erase_cons_head _ _
      · exact ⟨rfl, distinct, depth, bounded, by rw [if_neg within, if_neg repeated], rfl⟩

/-- An entry that starts with nothing open has all its visits on the path and ends with nothing
open, so clearing the path removes nothing. -/
theorem OnPath.entry (model : CodeModel) (options : WalkOptions)
    (on_path : log.OnPath options.clamped.maxDepth []) (className : String)
    (entry : MethodRecord) :
    (log.runEntry model options className entry).OnPath options.clamped.maxDepth [] := by
  have called := (on_path.act (·.join className) on_path.here).draw none
    (.message client className .activate (entry.name ++ "()"))
  have inside := called.expand model [] entry className List.nodup_nil (Nat.zero_add _)
  -- The path is cleared either way; what is left on it just before is what `inside` tells.
  refine ⟨inside.visits, fun left member => ?_, rfl⟩
  rcases List.mem_append.mp member with member | member
  · exact inside.cleared left member
  · rw [List.mem_singleton.mp member]
    exact inside.here

end LoggedWalk

/-! ### Whole runs -/

open LoggedWalk

theorem onPath_logEntry (model : CodeModel) (className methodName : String)
    (options : WalkOptions) :
    (logEntry model className methodName options).OnPath options.clamped.maxDepth [] := by
  unfold logEntry
  split
  next => exact (onPath_start _).draw none _
  next entry _ =>
    have start := (onPath_start options.clamped.maxDepth).act (·.join client) rfl
    exact start.entry model options className entry

theorem onPath_logAllEntries (model : CodeModel) (options : WalkOptions) :
    (logAllEntries model options).OnPath options.clamped.maxDepth [] := by
  unfold logAllEntries
  split
  next => exact (onPath_start _).draw none _
  next entries _ =>
    apply List.foldlRecOn (motive := OnPath options.clamped.maxDepth [])
    · exact (onPath_start _).act _ rfl
    · intro log on_path entry _
      exact (on_path.entry model options entry.owner entry).draw none .break

/-- Whether every visit is on the path, no expansion is inside another one of the same method or
inside `limit` others, no depth leaves the range of a machine word, and no entry leaves a method
open. -/
structure LoggedWalk.KeepsPath (limit : Nat) (log : LoggedWalk) : Prop where
  visits : ∀ visit ∈ log.visits, visit.OnPath limit
  nested : ∀ visit ∈ log.visits, visit.ending = .expanded →
    visit.method.key ∉ visit.opened.map (·.key) ∧ visit.opened.length + 1 ≤ limit
  depths : ∀ visit ∈ log.visits, visit.depth + 1 < USize.size
  cleared : ∀ left ∈ log.cleared, left = []

theorem LoggedWalk.OnPath.keepsPath {limit : Nat} {path : List (String × String)}
    {log : LoggedWalk} (on_path : log.OnPath limit path) (small : limit ≤ 64) :
    log.KeepsPath limit := by
  refine ⟨on_path.visits, fun visit member => (on_path.visits visit member).nested, ?_,
    on_path.cleared⟩
  intro visit member
  have bounded := (on_path.visits visit member).bounded
  -- A depth is at most 65, far below the smallest word size.
  have word : 2 ^ 32 ≤ USize.size := USize.le_size
  omega

/-- Whatever is traced, the path holds the open methods at every visit: the traces are the drawings
of logged walks that keep it. -/
theorem traces_keepPath (model : CodeModel) (options : WalkOptions) :
    (∀ className methodName,
      traceEntry model className methodName options =
          (logEntry model className methodName options).walk.diagram ∧
        (logEntry model className methodName options).KeepsPath (min options.maxDepth 64)) ∧
      traceAllEntries model options = (logAllEntries model options).walk.diagram ∧
        (logAllEntries model options).KeepsPath (min options.maxDepth 64) := by
  have small : min options.maxDepth 64 ≤ 64 := Nat.min_le_right _ _
  constructor
  · intro className methodName
    exact ⟨(diagram_logEntry model className methodName options).symm,
      (onPath_logEntry model className methodName options).keepsPath small⟩
  · exact ⟨(diagram_logAllEntries model options).symm,
      (onPath_logAllEntries model options).keepsPath small⟩

/-- Two methods that call each other. -/
def rally : CodeModel where
  classes := ⟨[("Left", { name := "Left" }), ("Right", { name := "Right" })]⟩
  methods := ⟨[
    ("Left", [{ owner := "Left", name := "hit", returnType := "void",
                calls := [⟨"Right", "hit", .onInstance, 2⟩] }]),
    ("Right", [{ owner := "Right", name := "hit", returnType := "void",
                 calls := [⟨"Left", "hit", .onInstance, 2⟩] }])]⟩

/-- A repeated visit leaves the key of the open method in place. -/
example :
    (logEntry rally "Left" "hit" {}).visits.map (fun visit => (visit.ending, visit.after)) =
      [(.repeated, [("Right", "hit"), ("Left", "hit")]), (.expanded, [("Left", "hit")]),
        (.expanded, [])] := by
  decide

end JavaDiagram
