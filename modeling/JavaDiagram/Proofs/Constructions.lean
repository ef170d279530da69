import JavaDiagram.Proofs.CallChains
import JavaDiagram.Proofs.LoggedWalk
import JavaDiagram.Proofs.Members

/-!
# Constructions in both diagrams

A construction in the body of a method becomes a call record for the walk and a used type for the
class diagram. The log of a walk says which method draws a step, and its steps are those of the
trace, so what holds of them holds of the trace.
-/

namespace JavaDiagram

/-! ### Constructions that are drawn -/

/-- Whether a method has a shown construction of a type. -/
def Constructs (model : CodeModel) (method : MethodRecord) (type : String) : Prop :=
  ∃ call, ShownCall model method call ∧ call.kind = .construction ∧ call.target = type

/-- Whether a construction is drawn from the class of a method of the model that has it. -/
structure DrawsConstruction (model : CodeModel) (method : MethodRecord) (source target : String) :
    Prop where
  caller : source = method.owner
  listed : method ∈ model.methodsOf method.owner
  constructs : Constructs model method target

/-- Whether each activation that a logged walk has drawn in an expansion is a construction of the
method that is expanded. -/
def LoggedWalk.DrawsConstructions (model : CodeModel) (log : LoggedWalk) : Prop :=
  ∀ method source target label,
    (some method, .message source target .activate label) ∈ log.drawn →
      DrawsConstruction model method source target

namespace LoggedWalk.DrawsConstructions

variable {model : CodeModel} {log : LoggedWalk}

theorem start (model : CodeModel) : DrawsConstructions model {} :=
  fun _ _ _ _ member => absurd member List.not_mem_nil

theorem draw (draws : log.DrawsConstructions model) {drawing : Option MethodRecord} {step : Step}
    (new : ∀ method source target label, drawing = some method →
      step = .message source target .activate label →
        DrawsConstruction model method source target) :
    (log.draw drawing step).DrawsConstructions model := by
  intro method source target label member
  rcases List.mem_append.mp member with member | member
  · exact draws method source target label member
  · obtain ⟨same_method, same_step⟩ := Prod.mk.inj (List.mem_singleton.mp member)
    exact new method source target label same_method.symm same_step.symm

/-- A step that is no activation adds nothing. -/
theorem draw_other (draws : log.DrawsConstructions model) (drawing : Option MethodRecord)
    {step : Step} (other : ∀ source target label, step ≠ .message source target .activate label) :
    (log.draw drawing step).DrawsConstructions model :=
  draws.draw fun _ source target label _ same => absurd same (other source target label)

/-- A step outside of all expansions adds nothing. -/
theorem draw_none (draws : log.DrawsConstructions model) (step : Step) :
    (log.draw none step).DrawsConstructions model :=
  draws.draw fun _ _ _ _ outside _ => nomatch outside

theorem call {expandCallee : MethodRecord → String → LoggedWalk → LoggedWalk}
    (callees : ∀ callee target inner, callee ∈ model.methodsOf target →
      DrawsConstructions model inner → DrawsConstructions model (expandCallee callee target inner))
    (draws : log.DrawsConstructions model) {method : MethodRecord} {call : CallRecord}
    (listed : method ∈ model.methodsOf method.owner) (called : call ∈ method.calls) :
    (logCall model expandCallee method method.owner log call).DrawsConstructions model := by
  unfold logCall
  split
  next shown =>
    have joined : (log.act (·.join call.target)).DrawsConstructions model := draws
    split
    next construction =>
      -- Of all steps of a call, this message alone activates its target.
      have constructs : Constructs model method call.target :=
        ⟨call, shownCall_iff.mpr ⟨called, shown⟩, construction, rfl⟩
      refine (joined.draw ?_).draw_other _ (by simp)
      rintro _ _ _ _ ⟨⟩ ⟨⟩
      exact ⟨rfl, listed, constructs⟩
    next =>
      cases found : model.findMethod call.target call.member with
      | none => exact joined.draw_other _ (by simp)
      | some callee =>
        have resolved : callee ∈ model.methodsOf call.target := List.mem_of_find?_eq_some found
        refine (callees callee call.target _ resolved ?_).draw_other _ (by simp)
        exact joined.draw_other _ (by simp)
  next => exact draws

theorem expand (owned : CodeModel.Owned model.methods) (remaining depth : Nat)
    (opened : List MethodRecord) {method : MethodRecord}
    (listed : method ∈ model.methodsOf method.owner) (draws : log.DrawsConstructions model) :
    (logExpand model remaining depth opened method method.owner log).DrawsConstructions model := by
  -- `listed` goes down with the walk: it is what makes the drawn owner the method's own.
  induction remaining generalizing depth opened method log with
  | zero => exact draws.draw_other _ (by simp)
  | succ remaining ih =>
    unfold logExpand
    split
    next => exact draws.draw_other _ (by simp)
    next =>
      apply List.foldlRecOn (motive := DrawsConstructions model)
      · exact draws
      · intro inner draws' call called
        apply draws'.call _ listed called
        rintro callee target deeper resolved draws''
        -- The callee is drawn under its own name, like the method that calls it.
        obtain rfl := owned target callee resolved
        exact ih (depth + 1) (method :: opened) resolved draws''

theorem entry (owned : CodeModel.Owned model.methods) (options : WalkOptions)
    {entry : MethodRecord} (listed : entry ∈ model.methodsOf entry.owner)
    (draws : log.DrawsConstructions model) :
    (log.runEntry model options entry.owner entry).DrawsConstructions model := by
  have joined : (log.act (·.join entry.owner)).DrawsConstructions model := draws
  have inside := (joined.draw_none (.message client entry.owner .activate
    (entry.name ++ "()"))).expand owned options.clamped.maxDepth 1 [] listed
  exact inside.draw_none (.message entry.owner client .return entry.replyLabel)

end LoggedWalk.DrawsConstructions

open LoggedWalk.DrawsConstructions

theorem drawsConstructions_logEntry {model : CodeModel} (owned : CodeModel.Owned model.methods)
    (className methodName : String) (options : WalkOptions) :
    (logEntry model className methodName options).DrawsConstructions model := by
  unfold logEntry
  split
  next => exact (start model).draw_none _
  next entry found =>
    have listed : entry ∈ model.methodsOf className := List.mem_of_find?_eq_some found
    obtain rfl := owned className entry listed
    have joined : (({} : LoggedWalk).act (·.join client)).DrawsConstructions model := start model
    exact joined.entry owned options listed

theorem mem_methodsOf_of_entry {model : CodeModel} (owned : CodeModel.Owned model.methods)
    (distinct : model.methods.keys.Nodup) {maxEntries : Nat} {entry : MethodRecord}
    (selected : entry ∈ entryMethods model maxEntries) : entry ∈ model.methodsOf entry.owner := by
  have candidate := (List.mem_filter.mp (List.mem_of_mem_take selected)).1
  obtain ⟨records, valued, listed⟩ := List.mem_flatten.mp candidate
  obtain ⟨⟨owner, _⟩, stored, rfl⟩ := List.mem_map.mp valued
  -- The entries are read off the whole table, the lists of methods by name.
  have found := Table.get?_of_mem_entries distinct stored
  have member : entry ∈ model.methodsOf owner := by
    rw [CodeModel.methodsOf, found]
    exact listed
  rw [owned owner entry member]
  exact member

theorem drawsConstructions_logAllEntries {model : CodeModel}
    (owned : CodeModel.Owned model.methods) (distinct : model.methods.keys.Nodup)
    (options : WalkOptions) : (logAllEntries model options).DrawsConstructions model := by
  unfold logAllEntries
  split
  next => exact (start model).draw_none _
  next =>
    apply List.foldlRecOn (motive := LoggedWalk.DrawsConstructions model)
    · exact start model
    · intro log draws entry selected
      have listed := mem_methodsOf_of_entry owned distinct selected
      exact (draws.entry owned options listed).draw_none .break

/-! ### Constructions that are used -/

theorem CallRecord.constructedType_of_ofSite {site : Java.Site}
    (construction : (CallRecord.ofSite site).kind = .construction) :
    constructedType site = some (CallRecord.ofSite site).target := by
  cases site with
  | creation => rfl
  | call => cases construction

/-- Whether no two declarations of one name are of different sorts. -/
def OneSort (decls : List Java.Declaration) : Prop :=
  ∀ decl ∈ decls, ∀ other ∈ decls, decl.name = other.name → decl.isEnum = other.isEnum

instance (decls : List Java.Declaration) : Decidable (OneSort decls) :=
  inferInstanceAs (Decidable (∀ decl ∈ decls, _))

namespace ClosedForm

variable {decls : List Java.Declaration} {model : CodeModel}

/-- What a method of a class constructs, the class uses. -/
theorem usesType_of_constructs (closed : ClosedForm decls model) (one_sort : OneSort decls)
    {method : MethodRecord} {type : String} (listed : method ∈ model.methodsOf method.owner)
    (is_method : method.isConstructor = false)
    (is_class : method.owner ∈ ClassDiagram.classNames decls)
    (constructs : Constructs model method type) :
    ∃ decl ∈ classesOf decls, decl.name = method.owner ∧ decl.UsesType type := by
  obtain ⟨call, ⟨called, _, _, different, _⟩, construction, rfl⟩ := constructs
  obtain ⟨declared, member, named, sort⟩ := mem_classNames_iff.mp is_class
  -- The records are those of the last declaration of the name, which is a class like the others.
  obtain ⟨last, final⟩ := exists_last_of_declared member
  rw [named] at final
  obtain ⟨last_member, same_name⟩ := List.mem_filter.mp (List.mem_of_getLast? final)
  have last_named : last.name = method.owner := of_decide_eq_true same_name
  have last_sort := one_sort last last_member declared member (last_named.trans named.symm)
  rw [sort] at last_sort
  rw [closed.methodsOf_of_last final] at listed
  cases last with
  | ofEnum decl => cases last_sort
  | ofClass decl =>
    refine ⟨decl, List.mem_filterMap.mpr ⟨_, last_member, rfl⟩, last_named, ?_⟩
    rcases List.mem_append.mp listed with written | written
    · -- The record and the used types come from the same sites of the same body.
      obtain ⟨body, in_class, rfl⟩ := List.mem_map.mp written
      obtain ⟨site, in_body, rfl⟩ := List.mem_map.mp called
      have constructed := CallRecord.constructedType_of_ofSite construction
      have written := Java.MethodSyntax.mem_constructed.mp
        (List.mem_filterMap.mpr ⟨site, in_body, constructed⟩)
      exact ⟨different, Or.inr ⟨body, in_class, written⟩⟩
    · obtain ⟨_, _, rfl⟩ := List.mem_map.mp written
      cases is_method

/-- Drawn constructions of methods of classes are edges of the class diagram. -/
theorem line_of_drawsConstruction (closed : ClosedForm decls model) (one_sort : OneSort decls)
    {method : MethodRecord} {source target : String}
    (draws : DrawsConstruction model method source target) (is_method : method.isConstructor = false)
    (is_class : model.classes.contains method.owner = true) :
    source ++ " --> " ++ target ++ " : uses" ∈ ClassDiagram.lines model := by
  obtain ⟨rfl, listed, constructs⟩ := draws
  -- A call is drawn to a known type only, and only such types have edges.
  have known : target ∈ decls.map (·.name) := by
    obtain ⟨call, ⟨_, _, _, _, known⟩, _, rfl⟩ := constructs
    exact (closed.isKnown_iff call.target).mp known
  have is_class := (closed.contains_class_iff method.owner).mp is_class
  have used := closed.usesType_of_constructs one_sort listed is_method is_class constructs
  have edge := (closed.mem_edges_iff ⟨.uses, method.owner, target⟩).mpr ⟨used, known⟩
  rw [ClassDiagram.lines_eq]
  exact List.mem_cons_of_mem _ (List.mem_append_right _ (List.mem_map.mpr ⟨_, edge, rfl⟩))

end ClosedForm

/-- Whether each type that a method of a class is drawn to construct is used by the class in the
class diagram. -/
def ConstructionsUsed (model : CodeModel) (steps : List (Option MethodRecord × Step)) : Prop :=
  ∀ method source target label,
    (some method, .message source target .activate label) ∈ steps →
    method.isConstructor = false → model.classes.contains method.owner = true →
      source = method.owner ∧
        source ++ " --> " ++ target ++ " : uses" ∈ ClassDiagram.lines model

/-- The two diagrams agree on constructions, if no name is declared as a class and as an enum. -/
theorem constructions_used (units : List Java.SyntaxUnit)
    (one_sort : OneSort (committedDeclarations units)) (options : WalkOptions) :
    let model := (({} : CodeModel).ingestAll units).1
    (∀ className methodName,
      (traceEntry model className methodName options).steps.toList =
          (logEntry model className methodName options).drawn.map (·.2) ∧
        ConstructionsUsed model (logEntry model className methodName options).drawn) ∧
      (traceAllEntries model options).steps.toList =
          (logAllEntries model options).drawn.map (·.2) ∧
        ConstructionsUsed model (logAllEntries model options).drawn := by
  intro model
  have closed : ClosedForm (committedDeclarations units) model :=
    (closedForm_iff_ingestAll units model).mpr rfl
  have owned : CodeModel.Owned model.methods := CodeModel.owned_ingestAll units
  have used {log : LoggedWalk} (draws : log.DrawsConstructions model) :
      ConstructionsUsed model log.drawn := by
    intro method source target label member is_method is_class
    have drawn := draws method source target label member
    exact ⟨drawn.caller, closed.line_of_drawsConstruction one_sort drawn is_method is_class⟩
  refine ⟨fun className methodName => ⟨steps_logEntry model className methodName options, ?_⟩,
    steps_logAllEntries model options, ?_⟩
  · exact used (drawsConstructions_logEntry owned className methodName options)
  · exact used (drawsConstructions_logAllEntries owned closed.methods.nodup_keys options)

/-- A stall hands out carts. -/
def stall : Java.ClassSyntax where
  name := "Stall"
  methods := [{
    name := "open"
    modifiers := { isPublic := true }
    body := some ⟨"return new Cart();", [.creation "Cart" 4]⟩ }]

def cart : Java.ClassSyntax where
  name := "Cart"

/-- The cart is declared in a later unit than the stall. -/
def market : List Java.SyntaxUnit :=
  [⟨"a", [.ok (.ofClass stall)]⟩, ⟨"b", [.ok (.ofClass cart)]⟩]

theorem market_constructions :
    OneSort (committedDeclarations market) ∧
      (some (Java.MethodSyntax.record "Stall" false (stall.methods.head (by decide))),
          .message "Stall" "Cart" .activate "new Cart()") ∈
        (logAllEntries (({} : CodeModel).ingestAll market).1 {}).drawn ∧
      "Stall --> Cart : uses" ∈ ClassDiagram.lines (({} : CodeModel).ingestAll market).1 := by
  have one_sort : OneSort (committedDeclarations market) := by decide
  have drawn : (some (Java.MethodSyntax.record "Stall" false (stall.methods.head (by decide))),
        .message "Stall" "Cart" .activate "new Cart()") ∈
      (logAllEntries (({} : CodeModel).ingestAll market).1 {}).drawn := by
    decide +kernel
  refine ⟨one_sort, drawn, ?_⟩
  exact ((constructions_used market one_sort {}).2.2 _ _ _ _ drawn rfl (by decide)).2

end JavaDiagram
