import JavaDiagram.Proofs.Collisions
import JavaDiagram.Proofs.OpenMethods

/-!
# Unrelated units

A walk asks a model two things about a name: whether it is known, and which methods it has. It asks
them of the entry's class and of the targets of the calls in the methods that it expands, and of no
other name. Ingesting a unit changes the answers for the names that the unit declares, so a walk
that asks for none of them stays the same, visit by visit.
-/

namespace JavaDiagram

/-! ### Models that agree on a name -/

/-- Whether two models tell a walk the same about a name. -/
structure AgreeOn (model other : CodeModel) (name : String) : Prop where
  known : model.isKnown name = other.isKnown name
  methods : model.methodsOf name = other.methodsOf name

namespace AgreeOn

variable {model other : CodeModel} {name : String}

theorem refl (model : CodeModel) (name : String) : AgreeOn model model name :=
  ⟨rfl, rfl⟩

theorem trans {last : CodeModel} (first : AgreeOn model other name)
    (second : AgreeOn other last name) : AgreeOn model last name :=
  ⟨first.known.trans second.known, first.methods.trans second.methods⟩

theorem findMethod (agree : AgreeOn model other name) (method : String) :
    model.findMethod name method = other.findMethod name method := by
  rw [CodeModel.findMethod, CodeModel.findMethod, agree.methods]

theorem isShown {call : CallRecord} (agree : AgreeOn model other call.target) (caller : String) :
    call.isShown model caller = call.isShown other caller := by
  rw [CallRecord.isShown, CallRecord.isShown, agree.known]

end AgreeOn

namespace CodeModel

theorem contains_commit (model : CodeModel) {decl : Java.Declaration} {name : String}
    (apart : name ≠ decl.name) :
    (model.commit decl.built).classes.contains name = model.classes.contains name ∧
      (model.commit decl.built).enums.contains name = model.enums.contains name := by
  show (model.commitAll [decl]).classes.contains name = _ ∧
    (model.commitAll [decl]).enums.contains name = _
  rw [commitAll_eq]
  have other {α : Type} (table : Table α) (value : α) :
      (table.put decl.name value).contains name = table.contains name := by
    rw [Table.contains, Table.get?_put, if_neg apart, Table.contains]
  -- Of the two tables a declaration writes to that of its own sort.
  cases decl with
  | ofClass decl => exact ⟨other model.classes decl.entity, rfl⟩
  | ofEnum decl => exact ⟨rfl, other model.enums decl.entity⟩

theorem agreeOn_commit (model : CodeModel) {decl : Java.Declaration} {name : String}
    (apart : name ≠ decl.name) : AgreeOn model (model.commit decl.built) name := by
  obtain ⟨classes, enums⟩ := model.contains_commit apart
  constructor
  · rw [isKnown, isKnown, classes, enums]
  · rw [methodsOf_commit, if_neg apart]

theorem agreeOn_commitAll (model : CodeModel) {decls : List Java.Declaration} {name : String}
    (apart : name ∉ decls.map (·.name)) : AgreeOn model (model.commitAll decls) name := by
  induction decls generalizing model with
  | nil => exact .refl model name
  | cons decl rest ih =>
    rw [List.map_cons, List.mem_cons, not_or] at apart
    exact (model.agreeOn_commit apart.1).trans (ih (model.commit decl.built) apart.2)

/-- A unit changes nothing about a name that it does not declare. -/
theorem agreeOn_ingest (model : CodeModel) {unit : Java.SyntaxUnit} {name : String}
    (apart : name ∉ unit.committed.map (·.name)) : AgreeOn model (model.ingest unit).1 name := by
  rw [ingest_model]
  exact model.agreeOn_commitAll apart

end CodeModel

/-! ### Two walks in lockstep -/

/-- Visits are listed and never taken away. -/
theorem LoggedWalk.isKept_visits (earlier : List Visit) : IsKept (earlier ⊆ ·.visits) where
  join _ _ within := within
  enter _ _ within := within
  leave _ _ within := within
  draw _ _ _ within := within
  endVisit _ _ _ _ _ _ within := List.subset_append_of_subset_left _ within

/-- Whether two models tell the same about every target of a call in the methods that a logged walk
has expanded. -/
def AgreeOnCalls (model other : CodeModel) (log : LoggedWalk) : Prop :=
  ∀ visit ∈ log.visits, visit.ending = .expanded →
    ∀ call ∈ visit.method.calls, AgreeOn model other call.target

section

variable {model other : CodeModel}

theorem AgreeOnCalls.earlier {log log' : LoggedWalk} (agree : AgreeOnCalls model other log')
    (earlier : log.visits ⊆ log'.visits) : AgreeOnCalls model other log :=
  fun visit member => agree visit (earlier member)

theorem AgreeOnCalls.of_act {log : LoggedWalk} {action : Walk → Walk}
    (agree : AgreeOnCalls model other (log.act action)) : AgreeOnCalls model other log :=
  agree

theorem AgreeOnCalls.of_draw {log : LoggedWalk} {drawing : Option MethodRecord} {step : Step}
    (agree : AgreeOnCalls model other (log.draw drawing step)) : AgreeOnCalls model other log :=
  agree

theorem AgreeOnCalls.endVisit {log : LoggedWalk} {before : List (String × String)}
    {method : MethodRecord} {depth : Nat} {opened : List MethodRecord}
    (agree : AgreeOnCalls model other (log.endVisit before method depth opened .expanded)) :
    AgreeOnCalls model other log ∧ ∀ call ∈ method.calls, AgreeOn model other call.target := by
  constructor
  · exact agree.earlier (List.subset_append_left _ _)
  · have listed : ⟨method, depth, opened, .expanded, before, log.walk.path⟩ ∈
        (log.endVisit before method depth opened .expanded).visits :=
      List.mem_append_right _ (List.mem_singleton_self _)
    exact agree _ listed rfl

theorem logCall_congr
    {expandCallee expandCallee' : MethodRecord → String → LoggedWalk → LoggedWalk}
    (callees : ∀ method target (inner : LoggedWalk),
      AgreeOnCalls model other (expandCallee method target inner) →
        expandCallee' method target inner = expandCallee method target inner)
    {method : MethodRecord} {caller : String} {log : LoggedWalk} {call : CallRecord}
    (target : AgreeOn model other call.target)
    (agree : AgreeOnCalls model other (logCall model expandCallee method caller log call)) :
    logCall other expandCallee' method caller log call =
      logCall model expandCallee method caller log call := by
  -- Both walks ask for the target alone, and then go on with its method.
  unfold logCall at agree ⊢
  rw [← target.isShown, ← target.findMethod]
  split
  next shown =>
    rw [if_pos shown] at agree
    split
    next => rfl
    next calls =>
      rw [if_neg calls] at agree
      cases found : model.findMethod call.target call.member with
      | none => rfl
      | some callee =>
        rw [found] at agree
        dsimp only at agree ⊢
        rw [callees callee call.target _ agree.of_draw]
  next => rfl

/-- The calls of a method are the same if the expansions of their callees are. -/
theorem foldl_logCall_congr
    {expandCallee expandCallee' : MethodRecord → String → LoggedWalk → LoggedWalk}
    (grows : ∀ method target (inner : LoggedWalk),
      inner.visits ⊆ (expandCallee method target inner).visits)
    (callees : ∀ method target (inner : LoggedWalk),
      AgreeOnCalls model other (expandCallee method target inner) →
        expandCallee' method target inner = expandCallee method target inner)
    {method : MethodRecord} {caller : String} {calls : List CallRecord} {log : LoggedWalk}
    (targets : ∀ call ∈ calls, AgreeOn model other call.target)
    (agree : AgreeOnCalls model other
      (calls.foldl (logCall model expandCallee method caller) log)) :
    calls.foldl (logCall other expandCallee' method caller) log =
      calls.foldl (logCall model expandCallee method caller) log := by
  induction calls generalizing log with
  | nil => rfl
  | cons call rest ih =>
    obtain ⟨target, targets⟩ := List.forall_mem_cons.mp targets
    have later := (LoggedWalk.isKept_visits _).calls model
      (fun callee target inner within => List.Subset.trans within (grows callee target inner))
      method caller (List.Subset.refl (logCall model expandCallee method caller log call).visits)
      rest
    have first := logCall_congr callees target (agree.earlier later)
    rw [List.foldl_cons, List.foldl_cons, first]
    exact ih targets agree

/-- A walk is the same in two models that agree on what its expanded methods call. -/
theorem logExpand_congr {remaining depth : Nat} {opened : List MethodRecord}
    {method : MethodRecord} {caller : String} {log : LoggedWalk}
    (agree : AgreeOnCalls model other
      (logExpand model remaining depth opened method caller log)) :
    logExpand other remaining depth opened method caller log =
      logExpand model remaining depth opened method caller log := by
  induction remaining generalizing depth opened method caller log with
  | zero => rfl
  | succ remaining ih =>
    unfold logExpand at agree ⊢
    split
    next => rfl
    next fresh =>
      rw [if_neg fresh] at agree
      -- The visit is listed when it ends, so the targets of its own calls are agreed on.
      obtain ⟨inside, own⟩ := agree.endVisit
      have grows (callee : MethodRecord) (target : String) (inner : LoggedWalk) :=
        (LoggedWalk.isKept_visits inner.visits).expand model remaining (depth + 1)
          (method :: opened) callee target (List.Subset.refl _)
      rw [foldl_logCall_congr grows (fun _ _ _ => ih) own inside.of_act]

end

/-! ### Named entries -/

/-- The methods that the sequence of a named entry expands. -/
def expandedMethods (model : CodeModel) (className methodName : String) (options : WalkOptions) :
    List MethodRecord :=
  ((logEntry model className methodName options).visits.filter (·.ending = .expanded)).map
    (·.method)

theorem agreeOnCalls_logEntry {model other : CodeModel} {className methodName : String}
    {options : WalkOptions}
    (agree : ∀ method ∈ expandedMethods model className methodName options,
      ∀ call ∈ method.calls, AgreeOn model other call.target) :
    AgreeOnCalls model other (logEntry model className methodName options) := by
  intro visit member expanded
  have listed : visit ∈ (logEntry model className methodName options).visits.filter
      (·.ending = .expanded) := List.mem_filter.mpr ⟨member, by simpa using expanded⟩
  exact agree visit.method (List.mem_map_of_mem listed)

theorem logEntry_congr {model other : CodeModel} {className methodName : String}
    {options : WalkOptions} (own : AgreeOn model other className)
    (agree : AgreeOnCalls model other (logEntry model className methodName options)) :
    logEntry other className methodName options = logEntry model className methodName options := by
  unfold logEntry at agree ⊢
  rw [← own.findMethod]
  cases found : model.findMethod className methodName with
  | none => rfl
  | some entry =>
    rw [found] at agree
    dsimp only [LoggedWalk.runEntry] at agree ⊢
    rw [logExpand_congr agree]

/-- A unit that declares neither the entry's class nor the target of a call in an expanded method
leaves the sequence of the entry as it was. -/
theorem traceEntry_ingest_unrelated (model : CodeModel) {unit : Java.SyntaxUnit}
    {className methodName : String} {options : WalkOptions}
    (own : className ∉ unit.committed.map (·.name))
    (targets : ∀ method ∈ expandedMethods model className methodName options,
      ∀ call ∈ method.calls, call.target ∉ unit.committed.map (·.name)) :
    traceEntry (model.ingest unit).1 className methodName options =
      traceEntry model className methodName options := by
  have agree := agreeOnCalls_logEntry fun method member call listed =>
    model.agreeOn_ingest (targets method member call listed)
  have same := logEntry_congr (model.agreeOn_ingest own) agree
  rw [← diagram_logEntry, ← diagram_logEntry, same]

/-- A class that calls one of the two players and that neither of them calls. -/
def umpire : Java.SyntaxUnit where
  origin := "Umpire.java"
  declarations := [.ok (.ofClass
    { name := "Umpire"
      methods := [{ name := "start"
                    modifiers := { isPublic := true }
                    body := some ⟨"", [.call (some "Left") "hit" 3]⟩ }] })]

/-- The sequence of a player stays, while one method more may start a sequence. -/
theorem rally_with_umpire :
    ("Left" ∉ umpire.committed.map (·.name) ∧
      (∀ method ∈ expandedMethods rally "Left" "hit" {}, ∀ call ∈ method.calls,
        call.target ∉ umpire.committed.map (·.name)) ∧
      traceEntry (rally.ingest umpire).1 "Left" "hit" {} = traceEntry rally "Left" "hit" {}) ∧
    (entryMethods (rally.ingest umpire).1 5).map (·.key) =
      [("Left", "hit"), ("Right", "hit"), ("Umpire", "start")] := by
  have own : "Left" ∉ umpire.committed.map (·.name) := by decide
  have targets : ∀ method ∈ expandedMethods rally "Left" "hit" {}, ∀ call ∈ method.calls,
      call.target ∉ umpire.committed.map (·.name) := by decide +kernel
  exact ⟨⟨own, targets, traceEntry_ingest_unrelated rally own targets⟩, by decide +kernel⟩

end JavaDiagram
