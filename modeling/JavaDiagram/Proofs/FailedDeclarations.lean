import JavaDiagram.Proofs.Collisions

/-!
# Failed declarations

A declaration fails if it could not be extracted or has a blank name. A report is told from the
declarations of its unit: the failing ones give the errors, the others the ingested names, and of
these the names that replace an entity are collisions. So a failing declaration leaves its error and
nothing else, and a unit can be cut anywhere.
-/

namespace JavaDiagram

/-! ### Failures -/

/-- The error of a declaration that fails: that of its extraction, or that its name is blank. -/
def failure? (origin : String) :
    Except Java.DeclarationError Java.Declaration → Option Java.DeclarationError
  | .error error => some error
  | .ok (.ofClass decl) =>
    if Text.isAllBlank decl.name then
      some (.unnamed origin (if decl.isInterface then .interface else .cls) decl.line)
    else none
  | .ok (.ofEnum decl) =>
    if Text.isAllBlank decl.name then some (.unnamed origin .enum decl.line) else none

/-- A unit without its failing declarations. -/
def Java.SyntaxUnit.withoutFailures (unit : Java.SyntaxUnit) : Java.SyntaxUnit :=
  { unit with
    declarations := unit.declarations.filter fun outcome => (failure? unit.origin outcome).isNone }

theorem failure?_ok (origin : String) (decl : Java.Declaration) :
    failure? origin (.ok decl) =
      if Text.isAllBlank decl.name then some (.unnamed origin decl.kind decl.line) else none := by
  cases decl <;> rfl

/-- A declaration fails or is committed, and never both. -/
theorem committed?_or_failure? (origin : String)
    (outcome : Except Java.DeclarationError Java.Declaration) :
    (∃ error, failure? origin outcome = some error ∧ Java.committed? outcome = none) ∨
      ∃ decl, outcome = .ok decl ∧ Text.isAllBlank decl.name = false ∧
        failure? origin outcome = none ∧ Java.committed? outcome = some decl := by
  cases outcome with
  | error error => exact Or.inl ⟨error, rfl, rfl⟩
  | ok decl =>
    -- Once extracted, a declaration is left out for one reason only.
    rw [failure?_ok, Java.committed?]
    by_cases blank : Text.isAllBlank decl.name = true
    · rw [if_pos blank, if_pos blank]
      exact Or.inl ⟨_, rfl, rfl⟩
    · rw [if_neg blank, if_neg blank]
      exact Or.inr ⟨decl, rfl, Bool.eq_false_iff.mpr blank, rfl, rfl⟩

theorem committed_withoutFailures (unit : Java.SyntaxUnit) :
    unit.withoutFailures.committed = unit.committed := by
  show (List.filter _ _).filterMap _ = _
  rw [List.filterMap_filter]
  -- Outcome by outcome, what the filter drops is nothing that would have been committed.
  apply List.filterMap_congr
  intro outcome _
  rcases committed?_or_failure? unit.origin outcome with ⟨error, failed, out⟩ | ⟨_, _, _, usable, _⟩
  · simp [failed, out]
  · simp [usable]

/-- Every declaration of a unit counts once, as committed or as failed. -/
theorem length_committed_add_failures (unit : Java.SyntaxUnit) :
    unit.committed.length + (unit.declarations.filterMap (failure? unit.origin)).length =
      unit.declarations.length := by
  obtain ⟨origin, outcomes⟩ := unit
  unfold Java.SyntaxUnit.committed
  dsimp only
  induction outcomes with
  | nil => rfl
  | cons outcome rest ih =>
    -- The first outcome makes exactly one of the two lists longer.
    rcases committed?_or_failure? origin outcome with ⟨_, failed, out⟩ | ⟨_, _, _, usable, taken⟩
    · rw [List.filterMap_cons_none out, List.filterMap_cons_some failed, List.length_cons,
        List.length_cons]
      omega
    · rw [List.filterMap_cons_some taken, List.filterMap_cons_none usable, List.length_cons,
        List.length_cons]
      omega

/-! ### Reports -/

/-- The names among committed declarations that replace an entity when their turn comes. -/
def replacedNames : CodeModel → List Java.Declaration → List String
  | _, [] => []
  | model, decl :: rest =>
    (if model.replaces decl.built then [decl.name] else []) ++
      replacedNames (model.commit decl.built) rest

theorem replacedNames_append (model : CodeModel) (front back : List Java.Declaration) :
    replacedNames model (front ++ back) =
      replacedNames model front ++ replacedNames (model.commitAll front) back := by
  induction front generalizing model with
  | nil => rfl
  | cons decl rest ih =>
    rw [List.cons_append, replacedNames, replacedNames, ih, List.append_assoc]
    rfl

theorem replacedNames_sublist (model : CodeModel) (decls : List Java.Declaration) :
    (replacedNames model decls).Sublist (decls.map (·.name)) := by
  induction decls generalizing model with
  | nil => exact .slnil
  | cons decl rest ih =>
    rw [replacedNames, List.map_cons]
    split
    · exact (ih _).cons_cons decl.name
    · exact (ih _).cons decl.name

/-- The report of two parts of one unit, from the reports of the parts. -/
def IngestReport.append (front back : IngestReport) : IngestReport where
  origin := front.origin
  ingested := front.ingested ++ back.ingested
  collisions := front.collisions ++ back.collisions
  errors := front.errors ++ back.errors

namespace CodeModel

theorem ingestOne_error (state : CodeModel × IngestReport)
    {outcome : Except Java.DeclarationError Java.Declaration} {error : Java.DeclarationError}
    (fails : failure? state.2.origin outcome = some error) :
    ingestOne state outcome =
      (state.1, { state.2 with errors := state.2.errors ++ [error] }) := by
  -- Extraction and the check of the name fail alike, before anything is written to the model.
  have failed : (outcome >>= Java.Declaration.build state.2.origin) = .error error := by
    cases outcome with
    | error other => exact congrArg Except.error (Option.some.inj fails)
    | ok decl =>
      show decl.build state.2.origin = _
      rw [failure?_ok] at fails
      rw [Java.Declaration.build_eq]
      split at fails
      next blank => rw [if_pos blank, Option.some.inj fails]
      next => cases fails
  unfold ingestOne
  dsimp only
  rw [failed]

/-- Taking in declarations adds to a report what they tell, whatever it holds already. -/
theorem report_foldl_ingestOne
    (outcomes : List (Except Java.DeclarationError Java.Declaration)) (model : CodeModel)
    (report : IngestReport) :
    (outcomes.foldl ingestOne (model, report)).2 =
      report.append
        ⟨report.origin, (outcomes.filterMap Java.committed?).map (·.name),
          replacedNames model (outcomes.filterMap Java.committed?),
          outcomes.filterMap (failure? report.origin)⟩ := by
  -- The model and the report so far vary: a committed declaration changes both for the rest.
  induction outcomes generalizing model report with
  | nil => simp [IngestReport.append, replacedNames]
  | cons outcome rest ih =>
    rw [List.foldl_cons]
    rcases committed?_or_failure? report.origin outcome with
      ⟨error, failed, out⟩ | ⟨decl, rfl, named, usable, taken⟩
    · rw [ingestOne_error (model, report) failed, ih, List.filterMap_cons_none out,
        List.filterMap_cons_some failed]
      simp [IngestReport.append]
    · rw [ingestOne_ok (model, report) named, ih, List.filterMap_cons_some taken,
        List.filterMap_cons_none usable, replacedNames]
      by_cases replaced : model.replaces decl.built = true <;>
        simp [IngestReport.append, replaced]

/-- The report of a unit in closed form. -/
theorem ingest_report (model : CodeModel) (unit : Java.SyntaxUnit) :
    (model.ingest unit).2 =
      ⟨unit.origin, unit.committed.map (·.name), replacedNames model unit.committed,
        unit.declarations.filterMap (failure? unit.origin)⟩ := by
  have added := report_foldl_ingestOne unit.declarations model ⟨unit.origin, [], [], []⟩
  exact added

/-- A unit in two parts is ingested part by part. -/
theorem ingest_parts (model : CodeModel) (origin : String)
    (front back : List (Except Java.DeclarationError Java.Declaration)) :
    model.ingest ⟨origin, front ++ back⟩ =
      (((model.ingest ⟨origin, front⟩).1.ingest ⟨origin, back⟩).1,
        (model.ingest ⟨origin, front⟩).2.append
          ((model.ingest ⟨origin, front⟩).1.ingest ⟨origin, back⟩).2) := by
  have committed : Java.SyntaxUnit.committed ⟨origin, front ++ back⟩ =
      Java.SyntaxUnit.committed ⟨origin, front⟩ ++ Java.SyntaxUnit.committed ⟨origin, back⟩ :=
    List.filterMap_append
  apply Prod.ext
  · rw [ingest_model, ingest_model, ingest_model, committed, commitAll_append]
  · -- the back part replaces names against the model that the front part leaves
    have between := ingest_model model ⟨origin, front⟩
    dsimp only
    rw [ingest_report, ingest_report, ingest_report, between, committed, List.map_append,
      replacedNames_append, List.filterMap_append]
    rfl

end CodeModel

/-- How a unit with failing declarations, taken in as `whole`, compares with the same unit without
them, taken in as `usable`. -/
structure IsolatesFailures (unit : Java.SyntaxUnit) (whole usable : CodeModel × IngestReport) :
    Prop where
  model : whole.1 = usable.1
  ingested : whole.2.ingested = usable.2.ingested
  collisions : whole.2.collisions = usable.2.collisions
  errors : whole.2.errors = unit.declarations.filterMap (failure? unit.origin)
  counted : whole.2.ingested.length + whole.2.errors.length = unit.declarations.length
  reported : whole.2.collisions.Sublist whole.2.ingested

/-- Failing declarations are isolated, whatever the model, and a unit in two parts is ingested part
by part with the reports put together. -/
theorem ingest_isolates (model : CodeModel) :
    (∀ unit : Java.SyntaxUnit,
      IsolatesFailures unit (model.ingest unit) (model.ingest unit.withoutFailures)) ∧
    ∀ origin front back,
      let first := model.ingest ⟨origin, front⟩
      let second := first.1.ingest ⟨origin, back⟩
      model.ingest ⟨origin, front ++ back⟩ = (second.1, first.2.append second.2) := by
  constructor
  · intro unit
    have same := committed_withoutFailures unit
    constructor
    · rw [CodeModel.ingest_model, CodeModel.ingest_model, same]
    · rw [CodeModel.ingest_report, CodeModel.ingest_report, same]
    · rw [CodeModel.ingest_report, CodeModel.ingest_report, same]
    · rw [CodeModel.ingest_report]
    · rw [CodeModel.ingest_report, List.length_map]
      exact length_committed_add_failures unit
    · rw [CodeModel.ingest_report]
      exact replacedNames_sublist model unit.committed
  · exact model.ingest_parts

/-- A blank name and a syntax error between two usable declarations. -/
example :
    (({} : CodeModel).ingest ⟨"a", [.ok (.ofClass tone), .ok (.ofEnum { name := " ", line := 4 }),
        .error (.malformed "a" .cls "Bell" 7), .ok (.ofClass tone)]⟩).2 =
      ⟨"a", ["Tone", "Tone"], ["Tone"], [.unnamed "a" .enum 4, .malformed "a" .cls "Bell" 7]⟩ := by
  decide

end JavaDiagram
