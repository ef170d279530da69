import JavaDiagram.Model.Ingest
import JavaDiagram.Proofs.NameSet
import JavaDiagram.Proofs.Table

/-!
# Ingestion as table revisions

Only declarations that were extracted and have a name that is not blank reach the model. Committing
them one after the other revises each of the six tables on its own, so the model is read off the
list of committed declarations without following the loop.
-/

namespace JavaDiagram

/-! ### Committed declarations -/

namespace Java

/-- The class or interface that a declaration is. -/
def Declaration.class? : Declaration → Option ClassSyntax
  | ofClass decl => some decl
  | ofEnum _ => none

/-- The enum that a declaration is. -/
def Declaration.enum? : Declaration → Option EnumSyntax
  | ofClass _ => none
  | ofEnum decl => some decl

/-- The entity of an enum. -/
def EnumSyntax.entity (decl : EnumSyntax) : EnumEntity :=
  ⟨decl.name, decl.constants⟩

/-- The method records of a declaration. -/
def Declaration.records : Declaration → List MethodRecord
  | ofClass decl => decl.records
  | ofEnum decl => decl.methods.map (·.record decl.name false)

/-- What a declaration adds to the model, whatever its name. -/
def Declaration.built : Declaration → BuiltDeclaration
  | ofClass decl => decl.build
  | ofEnum decl => decl.build

theorem Declaration.build_eq (origin : String) (decl : Declaration) :
    decl.build origin =
      if Text.isAllBlank decl.name then .error (.unnamed origin decl.kind decl.line)
      else .ok decl.built := by
  unfold Declaration.build
  cases decl <;> rfl

/-- The declaration of an outcome that reaches the model: it was extracted and has a name. -/
def committed? : Except DeclarationError Declaration → Option Declaration
  | .ok decl => if Text.isAllBlank decl.name then none else some decl
  | .error _ => none

/-- The declarations of a unit that reach the model, in order. -/
def SyntaxUnit.committed (unit : SyntaxUnit) : List Declaration :=
  unit.declarations.filterMap committed?

end Java

/-- The declarations that reach the model from several units, in order. -/
def committedDeclarations (units : List Java.SyntaxUnit) : List Java.Declaration :=
  units.flatMap (·.committed)

/-- The classes and interfaces among several declarations, in order. -/
def classesOf (decls : List Java.Declaration) : List Java.ClassSyntax :=
  decls.filterMap (·.class?)

/-- The enums among several declarations, in order. -/
def enumsOf (decls : List Java.Declaration) : List Java.EnumSyntax :=
  decls.filterMap (·.enum?)

namespace CodeModel

/-- Commits several declarations in order. -/
def commitAll (model : CodeModel) (decls : List Java.Declaration) : CodeModel :=
  decls.foldl (fun model decl => model.commit decl.built) model

theorem commitAll_append (model : CodeModel) (front back : List Java.Declaration) :
    model.commitAll (front ++ back) = (model.commitAll front).commitAll back :=
  List.foldl_append

/-- One outcome commits its declaration, if it has one that can be used. -/
theorem ingestOne_model (state : CodeModel × IngestReport)
    (outcome : Except Java.DeclarationError Java.Declaration) :
    (ingestOne state outcome).1 = state.1.commitAll (Java.committed? outcome).toList := by
  obtain ⟨model, report⟩ := state
  cases outcome with
  | error error => rfl
  | ok decl =>
    have built : (Except.ok decl >>= Java.Declaration.build report.origin) =
        decl.build report.origin := rfl
    unfold ingestOne Java.committed?
    dsimp only
    rw [built, Java.Declaration.build_eq]
    split_ifs <;> rfl

/-- Ingesting a unit commits its usable declarations in order. -/
theorem ingest_model (model : CodeModel) (unit : Java.SyntaxUnit) :
    (model.ingest unit).1 = model.commitAll unit.committed := by
  have run (outcomes : List (Except Java.DeclarationError Java.Declaration))
      (state : CodeModel × IngestReport) :
      (outcomes.foldl ingestOne state).1 =
        state.1.commitAll (outcomes.filterMap Java.committed?) := by
    induction outcomes generalizing state with
    | nil => rfl
    | cons outcome rest ih =>
      rw [List.foldl_cons, ih, ingestOne_model, ← commitAll_append]
      congr 1
      cases known : Java.committed? outcome <;> simp [known]
  exact run unit.declarations _

/-- Ingesting several units commits their usable declarations in order. -/
theorem ingestAll_model (model : CodeModel) (units : List Java.SyntaxUnit) :
    (model.ingestAll units).1 = model.commitAll (committedDeclarations units) := by
  have run (reports : List IngestReport) :
      (units.foldl
        (fun (state : CodeModel × List IngestReport) unit =>
          ((state.1.ingest unit).1, state.2 ++ [(state.1.ingest unit).2]))
        (model, reports)).1 = model.commitAll (committedDeclarations units) := by
    induction units generalizing model reports with
    | nil => rfl
    | cons unit rest ih =>
      rw [List.foldl_cons, ih, ingest_model, ← commitAll_append]
      rfl
  exact run []

end CodeModel

/-! ### Committing as revisions -/

/-- The revision that puts a value whatever was there. -/
def replacing {α : Type} (name : String) (value : α) : Revision α :=
  ⟨name, fun _ => value⟩

/-- The revision that adds names to a set, which starts empty. -/
def adding (name : String) (targets : List String) : Revision NameSet :=
  ⟨name, fun old => (old.getD []).insertAll targets⟩

/-- One revision for each type that a class names in one of its clauses. -/
def relating (clause : Java.ClassSyntax → List String) (decl : Java.ClassSyntax) :
    List (Revision NameSet) :=
  (clause decl).map fun type => adding decl.name [TypeName.normalize type]

namespace CodeModel

theorem foldl_addExtends (model : CodeModel) (name : String) (types : List String) :
    (types.map TypeName.normalize).foldl (fun acc sup => acc.addExtends name sup) model =
      { model with
        inherits := model.inherits.reviseAll
          (types.map fun type => adding name [TypeName.normalize type]) } := by
  induction types generalizing model with
  | nil => rfl
  | cons type types ih => exact ih (model.addExtends name (TypeName.normalize type))

theorem foldl_addImplements (model : CodeModel) (name : String) (types : List String) :
    (types.map TypeName.normalize).foldl (fun acc sup => acc.addImplements name sup) model =
      { model with
        implements := model.implements.reviseAll
          (types.map fun type => adding name [TypeName.normalize type]) } := by
  induction types generalizing model with
  | nil => rfl
  | cons type types ih => exact ih (model.addImplements name (TypeName.normalize type))

/-- Committing declarations revises each table on its own. -/
theorem commitAll_eq (model : CodeModel) (decls : List Java.Declaration) :
    model.commitAll decls =
      { classes := model.classes.reviseAll
          ((classesOf decls).map fun decl => replacing decl.name decl.entity)
        enums := model.enums.reviseAll
          ((enumsOf decls).map fun decl => replacing decl.name decl.entity)
        uses := model.uses.reviseAll
          ((classesOf decls).map fun decl => adding decl.name decl.uses)
        inherits := model.inherits.reviseAll ((classesOf decls).flatMap (relating (·.superTypes)))
        implements := model.implements.reviseAll
          ((classesOf decls).flatMap (relating (·.interfaces)))
        methods := model.methods.reviseAll
          (decls.map fun decl => replacing decl.name decl.records) } := by
  induction decls generalizing model with
  | nil => rfl
  | cons decl rest ih =>
    -- Revisions of the first declaration come before those of the rest in every table.
    rw [commitAll, List.foldl_cons]
    rw [← commitAll, ih]
    cases decl with
    | ofEnum decl => rfl
    | ofClass decl =>
      simp only [Java.Declaration.built, Java.ClassSyntax.build, commit, foldl_addExtends,
        foldl_addImplements, classesOf, enumsOf, List.filterMap_cons, Java.Declaration.class?,
        Java.Declaration.enum?, List.map_cons, List.flatMap_cons, Table.reviseAll,
        List.foldl_append, List.foldl_cons]
      rfl

/-- Method records are put under the declared name, whatever sort of declaration they come from. -/
theorem methods_commit (model : CodeModel) (decl : Java.Declaration) :
    (model.commit decl.built).methods = model.methods.put decl.name decl.records := by
  show (model.commitAll [decl]).methods = _
  rw [commitAll_eq]
  rfl

end CodeModel

end JavaDiagram
