import JavaDiagram.Diagram.ClassDiagram
import JavaDiagram.Proofs.Entries
import JavaDiagram.Proofs.Ingestion

/-!
# What diagrams do not look at

Origins, line numbers, the texts of bodies and the word `synchronized` are kept in declarations, and
the last three leave marks in method records: flow patterns and the lines of calls. Erasing them
commutes with building, with committing and with every step of a walk, so no diagram shows anything
of them.
-/

namespace JavaDiagram

/-! ### Declarations -/

namespace Java

def Site.erased : Site → Site
  | .call receiver name _ => .call receiver name 0
  | .creation typeText _ => .creation typeText 0

def Modifiers.erased (modifiers : Modifiers) : Modifiers :=
  { modifiers with isSynchronized := false }

/-- A body without its text; its sites stay. -/
def Body.erased (body : Body) : Body where
  text := ""
  sites := body.sites.map (·.erased)

def MethodSyntax.erased (method : MethodSyntax) : MethodSyntax :=
  { method with
    modifiers := method.modifiers.erased
    body := method.body.map (·.erased)
    line := 0 }

def FieldSyntax.erased (field : FieldSyntax) : FieldSyntax :=
  { field with modifiers := field.modifiers.erased }

def ClassSyntax.erased (decl : ClassSyntax) : ClassSyntax :=
  { decl with
    modifiers := decl.modifiers.erased
    fields := decl.fields.map (·.erased)
    methods := decl.methods.map (·.erased)
    constructors := decl.constructors.map (·.erased)
    line := 0 }

def EnumSyntax.erased (decl : EnumSyntax) : EnumSyntax :=
  { decl with
    methods := decl.methods.map (·.erased)
    line := 0 }

def Declaration.erased : Declaration → Declaration
  | ofClass decl => ofClass decl.erased
  | ofEnum decl => ofEnum decl.erased

def DeclarationError.erased : DeclarationError → DeclarationError
  | malformed _ kind name _ => malformed "" kind name 0
  | unnamed _ kind _ => unnamed "" kind 0

def erasedOutcome : Except DeclarationError Declaration → Except DeclarationError Declaration
  | .ok decl => .ok decl.erased
  | .error error => .error error.erased

/-- A unit without its origin, its line numbers, the texts of its bodies and `synchronized`. -/
def SyntaxUnit.erased (unit : SyntaxUnit) : SyntaxUnit where
  origin := ""
  declarations := unit.declarations.map erasedOutcome

end Java

/-! ### Records and models -/

def CallRecord.erased (call : CallRecord) : CallRecord :=
  { call with line := 0 }

def MethodRecord.erased (method : MethodRecord) : MethodRecord :=
  { method with
    flowPatterns := []
    calls := method.calls.map (·.erased) }

/-- The same names with other values. -/
def Table.map {α β : Type} (f : α → β) (table : Table α) : Table β :=
  ⟨table.entries.map fun (name, value) => (name, f value)⟩

/-- A model without flow patterns and without the lines of calls. -/
def CodeModel.erased (model : CodeModel) : CodeModel :=
  { model with methods := model.methods.map (·.map (·.erased)) }

namespace Table

variable {α β : Type} (f : α → β)

theorem get?_map (table : Table α) (name : String) :
    (table.map f).get? name = (table.get? name).map f := by
  obtain ⟨entries⟩ := table
  simp only [map, get?]
  induction entries with
  | nil => rfl
  | cons entry rest ih =>
    rw [List.map_cons, List.lookup_cons, List.lookup_cons, ih]
    cases name == entry.1 <;> rfl

theorem map_put (table : Table α) (name : String) (value : α) :
    (table.put name value).map f = (table.map f).put name (f value) := by
  obtain ⟨entries⟩ := table
  simp only [map, put, mk.injEq]
  induction entries with
  | nil => rfl
  | cons entry rest ih =>
    simp only [putEntry, List.map_cons]
    by_cases same : entry.1 = name
    · simp only [if_pos same, List.map_cons]
    · simp only [if_neg same, List.map_cons, ih]

end Table

/-- What is picked from changed items is what was picked before, changed as well. -/
theorem filterMap_map_comm {α β γ δ : Type} {change : α → γ} {change' : β → δ}
    {pick : α → Option β} {pick' : γ → Option δ}
    (commutes : ∀ item, pick' (change item) = (pick item).map change') (items : List α) :
    (items.map change).filterMap pick' = (items.filterMap pick).map change' := by
  rw [List.filterMap_map, List.map_filterMap]
  exact List.filterMap_congr fun item _ => commutes item

/-! ### Building -/

namespace Java

namespace MethodSyntax

variable (method : MethodSyntax)

theorem sites_erased : method.erased.sites = method.sites.map (·.erased) := by
  unfold sites erased
  cases method.body <;> rfl

/-- Without its text a body shows no pattern. -/
theorem flowPatterns_erased :
    FlowPattern.detect method.erased.bodyText method.erased.modifiers.isSynchronized = [] := by
  have no_text : method.erased.bodyText = "" := by
    unfold bodyText erased
    cases method.body <;> rfl
  have no_word : method.erased.modifiers.isSynchronized = false := rfl
  rw [no_text, no_word]
  decide

theorem ofSite_erased (site : Site) :
    CallRecord.ofSite site.erased = (CallRecord.ofSite site).erased := by
  cases site <;> rfl

theorem record_erased (owner : String) (isConstructor : Bool) :
    method.erased.record owner isConstructor = (method.record owner isConstructor).erased := by
  have calls : method.erased.sites.map CallRecord.ofSite =
      (method.sites.map CallRecord.ofSite).map (·.erased) := by
    rw [sites_erased, List.map_map, List.map_map]
    exact List.map_congr_left fun site _ => ofSite_erased site
  simp only [record, flowPatterns_erased, calls, MethodRecord.erased]
  rfl

theorem constructed_erased :
    method.erased.sites.filterMap constructedType = method.sites.filterMap constructedType := by
  rw [sites_erased, List.filterMap_map]
  apply List.filterMap_congr
  intro site _
  cases site <;> rfl

end MethodSyntax

namespace ClassSyntax

variable (decl : ClassSyntax)

theorem membersWhere_erased (test : MethodKind → Bool) :
    decl.erased.membersWhere test = decl.membersWhere test := by
  rw [membersWhere, membersWhere, erased, List.filter_map, List.map_map]
  rfl

theorem entity_erased : decl.erased.entity = decl.entity := by
  simp only [entity, membersWhere_erased]
  simp only [erased, List.map_map]
  rfl

theorem uses_erased : decl.erased.uses = decl.uses := by
  have fields : decl.erased.fields.map (fun f => TypeName.normalize f.typeText) =
      decl.fields.map fun f => TypeName.normalize f.typeText := by
    rw [erased, List.map_map]
    rfl
  have constructed : (decl.erased.methods.flatMap fun m => m.sites.filterMap constructedType) =
      decl.methods.flatMap fun m => m.sites.filterMap constructedType := by
    rw [erased, List.flatMap_map]
    exact List.flatMap_congr fun method _ => method.constructed_erased
  unfold uses
  rw [fields, constructed]
  rfl

theorem records_erased : decl.erased.records = decl.records.map (·.erased) := by
  have written (methods : List MethodSyntax) (isConstructor : Bool) :
      (methods.map (·.erased)).map (·.record decl.name isConstructor) =
        (methods.map (·.record decl.name isConstructor)).map (·.erased) := by
    rw [List.map_map, List.map_map]
    exact List.map_congr_left fun method _ => method.record_erased decl.name isConstructor
  rw [records, records, List.map_append, ← written, ← written]
  rfl

end ClassSyntax

theorem EnumSyntax.entity_erased (decl : EnumSyntax) : decl.erased.entity = decl.entity :=
  rfl

theorem Declaration.name_erased (decl : Declaration) : decl.erased.name = decl.name := by
  cases decl <;> rfl

theorem Declaration.records_erased (decl : Declaration) :
    decl.erased.records = decl.records.map (·.erased) := by
  cases decl with
  | ofClass decl => exact decl.records_erased
  | ofEnum decl =>
    show (decl.methods.map _).map _ = (decl.methods.map _).map _
    rw [List.map_map, List.map_map]
    exact List.map_congr_left fun method _ => method.record_erased decl.name false

theorem committed?_erased (outcome : Except DeclarationError Declaration) :
    committed? (erasedOutcome outcome) = (committed? outcome).map (·.erased) := by
  cases outcome with
  | error error => rfl
  | ok decl =>
    simp only [erasedOutcome, committed?, Declaration.name_erased]
    split <;> rfl

theorem SyntaxUnit.committed_erased (unit : SyntaxUnit) :
    unit.erased.committed = unit.committed.map (·.erased) :=
  filterMap_map_comm committed?_erased unit.declarations

end Java

/-! ### Committing -/

theorem classesOf_erased (decls : List Java.Declaration) :
    classesOf (decls.map (·.erased)) = (classesOf decls).map (·.erased) :=
  filterMap_map_comm (fun decl => by cases decl <;> rfl) decls

theorem enumsOf_erased (decls : List Java.Declaration) :
    enumsOf (decls.map (·.erased)) = (enumsOf decls).map (·.erased) :=
  filterMap_map_comm (fun decl => by cases decl <;> rfl) decls

theorem Table.map_reviseAll_replacing {α β γ : Type} (f : α → β) (name : γ → String)
    (value : γ → α) (items : List γ) (table : Table α) :
    (table.reviseAll (items.map fun item => replacing (name item) (value item))).map f =
      (table.map f).reviseAll (items.map fun item => replacing (name item) (f (value item))) := by
  induction items generalizing table with
  | nil => rfl
  | cons item rest ih =>
    have first := ih (table.put (name item) (value item))
    rw [Table.map_put] at first
    exact first

namespace CodeModel

/-- Erased declarations make an erased model. -/
theorem commitAll_erased (model : CodeModel) (decls : List Java.Declaration) :
    model.erased.commitAll (decls.map (·.erased)) = (model.commitAll decls).erased := by
  have methods : (decls.map (·.erased)).map (fun decl => replacing decl.name decl.records) =
      decls.map fun decl => replacing decl.name (decl.records.map (·.erased)) := by
    rw [List.map_map]
    apply List.map_congr_left
    intro decl _
    simp only [Function.comp, Java.Declaration.name_erased, Java.Declaration.records_erased]
  rw [commitAll_eq, commitAll_eq, classesOf_erased, enumsOf_erased, methods]
  simp only [erased, Table.map_reviseAll_replacing, List.map_map, List.flatMap_map,
    Function.comp_def, Java.ClassSyntax.entity_erased, Java.ClassSyntax.uses_erased]
  rfl

theorem ingestAll_erased (units : List Java.SyntaxUnit) :
    (({} : CodeModel).ingestAll (units.map (·.erased))).1 =
      (({} : CodeModel).ingestAll units).1.erased := by
  have committed : committedDeclarations (units.map (·.erased)) =
      (committedDeclarations units).map (·.erased) := by
    rw [committedDeclarations, committedDeclarations, List.flatMap_map, List.map_flatMap]
    exact List.flatMap_congr fun unit _ => unit.committed_erased
  rw [ingestAll_model, ingestAll_model, committed]
  exact commitAll_erased {} (committedDeclarations units)

end CodeModel

/-! ### Walks -/

section

variable (model : CodeModel)

theorem methodsOf_erased (owner : String) :
    model.erased.methodsOf owner = (model.methodsOf owner).map (·.erased) := by
  rw [CodeModel.methodsOf, CodeModel.methodsOf, CodeModel.erased, Table.get?_map]
  cases model.methods.get? owner <;> rfl

theorem findMethod_erased (owner name : String) :
    model.erased.findMethod owner name = (model.findMethod owner name).map (·.erased) := by
  rw [CodeModel.findMethod, CodeModel.findMethod, methodsOf_erased, List.find?_map]
  rfl

theorem isShown_erased (caller : String) (call : CallRecord) :
    call.erased.isShown model.erased caller = call.isShown model caller :=
  rfl

theorem message_erased (caller : String) (call : CallRecord) :
    call.erased.message model.erased caller = call.message model caller := by
  have label (callee : Option MethodRecord) :
      call.erased.label (callee.map (·.erased)) = call.label callee := by
    cases callee <;> rfl
  unfold CallRecord.message
  rw [findMethod_erased model call.erased.target, label]
  rfl

theorem answer_erased {expandCallee expandCallee' : MethodRecord → String → List Step}
    (callees : ∀ method target, expandCallee' method.erased target = expandCallee method target)
    (caller : String) (call : CallRecord) :
    call.erased.answer model.erased expandCallee' caller =
      call.answer model expandCallee caller := by
  have found : model.erased.findMethod call.erased.target call.erased.member =
      (model.findMethod call.target call.member).map (·.erased) := findMethod_erased model _ _
  unfold CallRecord.answer
  rw [found]
  cases model.findMethod call.target call.member with
  | none => rfl
  | some method =>
    have callee : expandCallee' method.erased call.erased.target =
        expandCallee method call.target := callees method call.target
    dsimp only [Option.map_some]
    rw [callee]
    rfl

theorem callSteps_erased {expandCallee expandCallee' : MethodRecord → String → List Step}
    (callees : ∀ method target, expandCallee' method.erased target = expandCallee method target)
    (caller : String) (call : CallRecord) :
    callSteps model.erased expandCallee' caller call.erased =
      callSteps model expandCallee caller call := by
  rw [callSteps, callSteps, isShown_erased, message_erased, answer_erased model callees]

/-- A method is expanded alike in both models, since its key and the calls are the same. -/
theorem expansion_erased (remaining : Nat) (path : List (String × String)) (method : MethodRecord)
    (caller : String) :
    expansion model.erased remaining path method.erased caller =
      expansion model remaining path method caller := by
  induction remaining generalizing path method caller with
  | zero => rfl
  | succ remaining ih =>
    have key : method.erased.key = method.key := rfl
    by_cases repeated : method.key ∈ path
    · rw [expansion_of_mem caller repeated, expansion_of_mem caller (key ▸ repeated)]
      rfl
    · rw [expansion_of_not_mem caller repeated, expansion_of_not_mem caller (key ▸ repeated)]
      have calls : method.erased.calls = method.calls.map (·.erased) := rfl
      rw [calls, List.flatMap_map]
      apply List.flatMap_congr
      intro call _
      exact callSteps_erased model (ih (method.key :: path)) caller call

theorem entrySteps_erased (options : WalkOptions) (className : String) (entry : MethodRecord) :
    entrySteps model.erased options [] className entry.erased =
      entrySteps model options [] className entry := by
  rw [entrySteps, entrySteps, expansion_erased]
  rfl

theorem selectedEntries_erased (options : WalkOptions) :
    selectedEntries model.erased options = (selectedEntries model options).map (·.erased) := by
  have listed : model.erased.methods.entries.flatMap (·.2) =
      (model.methods.entries.flatMap (·.2)).map (·.erased) := by
    show (model.methods.entries.map _).flatMap _ = _
    rw [List.flatMap_map, List.map_flatMap]
  rw [selectedEntries, selectedEntries, listed, List.filter_map, List.map_take]
  rfl

/-! ### Diagrams -/

theorem render_erased : ClassDiagram.render model.erased = ClassDiagram.render model :=
  rfl

theorem traceEntry_erased (className methodName : String) (options : WalkOptions) :
    traceEntry model.erased className methodName options =
      traceEntry model className methodName options := by
  have found := findMethod_erased model className methodName
  cases known : model.findMethod className methodName with
  | none =>
    rw [known] at found
    rw [traceEntry_of_missing options known, traceEntry_of_missing options found]
  | some entry =>
    rw [known] at found
    rw [traceEntry_eq_draw options known, traceEntry_eq_draw options found, entrySteps_erased]

theorem traceAllEntries_erased (options : WalkOptions) :
    traceAllEntries model.erased options = traceAllEntries model options := by
  have selected := selectedEntries_erased model options
  by_cases none : selectedEntries model options = []
  · rw [none] at selected
    rw [traceAllEntries_of_none none, traceAllEntries_of_none selected]
  · have some_entry : selectedEntries model.erased options ≠ [] := by
      rw [selected]
      exact mt List.map_eq_nil_iff.mp none
    rw [traceAllEntries_eq_draw none, traceAllEntries_eq_draw some_entry, selected,
      List.flatMap_map]
    congr 1
    apply List.flatMap_congr
    intro entry _
    have owner : entry.erased.owner = entry.owner := rfl
    rw [steps_entryAlone, steps_entryAlone, owner, entrySteps_erased]

end

/-- Whether two models have the same diagrams, whatever is asked for. -/
structure SameDiagrams (model other : CodeModel) : Prop where
  classes : ClassDiagram.render model = ClassDiagram.render other
  entry : ∀ className methodName options,
    traceEntry model className methodName options = traceEntry other className methodName options
  entries : ∀ options, traceAllEntries model options = traceAllEntries other options

theorem sameDiagrams_of_erased_eq {model other : CodeModel} (same : model.erased = other.erased) :
    SameDiagrams model other := by
  constructor
  · rw [← render_erased model, same, render_erased]
  · intro className methodName options
    rw [← traceEntry_erased model, same, traceEntry_erased]
  · intro options
    rw [← traceAllEntries_erased model, same, traceAllEntries_erased]

/-- Units that are equal once erased have the same diagrams. In particular no diagram depends on the
flow patterns of a model. -/
theorem diagrams_ignore_details :
    (∀ units units' : List Java.SyntaxUnit, units.map (·.erased) = units'.map (·.erased) →
      SameDiagrams (({} : CodeModel).ingestAll units).1 (({} : CodeModel).ingestAll units').1) ∧
    ∀ model other : CodeModel, model.erased = other.erased → SameDiagrams model other := by
  constructor
  · intro units units' same
    apply sameDiagrams_of_erased_eq
    rw [← CodeModel.ingestAll_erased, same, CodeModel.ingestAll_erased]
  · exact fun _ _ => sameDiagrams_of_erased_eq

/-- A clock that rings a bell, with what diagrams do not look at left open. -/
def clock (origin text : String) (line : Nat) (isSynchronized : Bool) : List Java.SyntaxUnit :=
  [⟨origin, [
    .ok (.ofClass
      { name := "Clock"
        methods := [{ name := "tick"
                      modifiers := { isPublic := true, isSynchronized := isSynchronized }
                      body := some ⟨text, [.call (some "Bell") "ring" (line + 2)]⟩
                      line := line + 1 }]
        line := line }),
    .error (.malformed origin .cls "Hand" (line + 9)),
    .ok (.ofClass { name := "Bell", methods := [{ name := "ring" }] })]⟩]

theorem clock_sameDiagrams :
    ((clock "a" "if (late) Bell.ring();" 1 true).map (·.erased) =
        (clock "b" "Bell.ring();" 5 false).map (·.erased) ∧
      SameDiagrams (({} : CodeModel).ingestAll (clock "a" "if (late) Bell.ring();" 1 true)).1
        (({} : CodeModel).ingestAll (clock "b" "Bell.ring();" 5 false)).1) ∧
    ((({} : CodeModel).ingestAll (clock "a" "if (late) Bell.ring();" 1 true)).1.findMethod "Clock"
        "tick").map (·.flowPatterns) = some [.conditional, .synchronized] := by
  have same : (clock "a" "if (late) Bell.ring();" 1 true).map (·.erased) =
      (clock "b" "Bell.ring();" 5 false).map (·.erased) := rfl
  exact ⟨⟨same, diagrams_ignore_details.1 _ _ same⟩, by decide +kernel⟩

end JavaDiagram
