import JavaDiagram.Model.Building
import JavaDiagram.Model.CodeModel

/-!
# Ingesting source units

Declarations are taken one after the other. One that fails is reported and leaves the model as it
was; one that succeeds is committed whole.
-/

namespace JavaDiagram

/-- What became of the declarations of one unit. -/
structure IngestReport where
  origin : String
  ingested : List String := []
  /-- Names that took the place of an earlier declaration. -/
  collisions : List String := []
  errors : List Java.DeclarationError := []
  deriving DecidableEq, Repr

namespace CodeModel

/-- Whether committing a declaration replaces an entity of the same sort. -/
def replaces (model : CodeModel) : BuiltDeclaration → Bool
  | .ofClass entity .. => model.classes.contains entity.name
  | .ofEnum entity _ => model.enums.contains entity.name

/-- Adds a built declaration. The method records of a name are replaced; relations only grow. -/
def commit (model : CodeModel) : BuiltDeclaration → CodeModel
  | .ofEnum entity methods =>
    let model := model.insertEnum entity
    { model with methods := model.methods.put entity.name methods }
  | .ofClass entity uses superTypes interfaces methods =>
    let model := model.insertClass entity
    let model := { model with methods := model.methods.put entity.name methods }
    let model := { model with uses := model.uses.update entity.name [] (·.insertAll uses) }
    let model := superTypes.foldl (fun acc sup => acc.addExtends entity.name sup) model
    interfaces.foldl (fun acc sup => acc.addImplements entity.name sup) model

/-- Takes one declaration into the model and its outcome into the report. -/
def ingestOne (state : CodeModel × IngestReport)
    (decl : Except Java.DeclarationError Java.Declaration) : CodeModel × IngestReport :=
  let (model, report) := state
  match decl >>= Java.Declaration.build report.origin with
  | .error error => (model, { report with errors := report.errors ++ [error] })
  | .ok built =>
    (model.commit built,
      { report with
        ingested := report.ingested ++ [built.name]
        -- What is replaced is asked of the model as it was before.
        collisions :=
          if model.replaces built then report.collisions ++ [built.name] else report.collisions })

/-- Takes all declarations of a unit into the model. -/
def ingest (model : CodeModel) (unit : Java.SyntaxUnit) : CodeModel × IngestReport :=
  unit.declarations.foldl ingestOne (model, ⟨unit.origin, [], [], []⟩)

/-- Takes units into the model one after the other. -/
def ingestAll (model : CodeModel) (units : List Java.SyntaxUnit) :
    CodeModel × List IngestReport :=
  units.foldl
    (fun (model, reports) unit =>
      let (model, report) := model.ingest unit
      (model, reports ++ [report]))
    (model, [])

end CodeModel

end JavaDiagram
