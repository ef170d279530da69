import Mathlib.Data.List.TakeWhile
import JavaDiagram.Proofs.Edges
import JavaDiagram.Proofs.Growth

/-!
# Invariants of the tables

No operation checks the six tables against one another. A model that is grown by any changes has
tables that are well kept each on its own. One that is grown by ingesting only also has tables that
agree on the declared names, which is read off its closed form.
-/

namespace JavaDiagram

namespace CodeModel

/-- A model that is grown by ingesting only is the model of the committed declarations. -/
theorem grown_ingest (units : List Java.SyntaxUnit) :
    grown (units.map Change.ingest) = ({} : CodeModel).commitAll (committedDeclarations units) := by
  rw [← ingestAll_model, grown, List.foldl_map]
  -- The two runs differ in the reports, which no unit looks at.
  have run (model : CodeModel) (reports : List IngestReport) :
      units.foldl (fun model unit => model.apply (.ingest unit)) model =
        (units.foldl
          (fun (state : CodeModel × List IngestReport) unit =>
            ((state.1.ingest unit).1, state.2 ++ [(state.1.ingest unit).2]))
          (model, reports)).1 := by
    induction units generalizing model reports with
    | nil => rfl
    | cons unit rest ih => exact ih (model.ingest unit).1 _
  exact run {} []

/-- Whether the tables of a model agree on its names: what classes use is listed in their order, and
only classes have clauses and only declared names have methods. -/
structure NamesAgree (model : CodeModel) : Prop where
  uses : model.uses.keys = model.classes.keys
  inherits : ∀ name ∈ model.inherits.keys, name ∈ model.classes.keys
  implements : ∀ name ∈ model.implements.keys, name ∈ model.classes.keys
  methods : ∀ name, name ∈ model.methods.keys ↔
    name ∈ model.classes.keys ∨ name ∈ model.enums.keys
  noSelfUse : ∀ name targets, (name, targets) ∈ model.uses.entries → name ∉ targets
  named : ∀ name, name ∈ model.classes.keys ∨ name ∈ model.enums.keys →
    Text.trim name.toList ≠ []

end CodeModel

theorem Text.trim_eq_nil_iff {cs : List Char} : trim cs = [] ↔ cs.all isBlank = true := by
  rw [trim, trimEnd, List.reverse_eq_nil_iff, List.dropWhile_eq_nil_iff, List.all_eq_true]
  simp only [List.mem_reverse]
  constructor
  · intro blank c member
    -- What trimming drops at the front is blank, and so is what it leaves there.
    have parts : c ∈ cs.takeWhile isBlank ++ cs.dropWhile isBlank := by simpa using member
    rcases List.mem_append.mp parts with dropped | left
    · exact List.mem_takeWhile_imp dropped
    · exact blank c left
  · intro blank c member
    exact blank c ((List.dropWhile_sublist isBlank).subset member)

theorem mem_committedDeclarations {units : List Java.SyntaxUnit} {decl : Java.Declaration}
    (member : decl ∈ committedDeclarations units) : Text.isAllBlank decl.name = false := by
  obtain ⟨unit, _, member⟩ := List.mem_flatMap.mp member
  obtain ⟨outcome, _, taken⟩ := List.mem_filterMap.mp member
  cases outcome with
  | error error => cases taken
  | ok other =>
    rw [Java.committed?] at taken
    split at taken
    · cases taken
    next named =>
      cases taken
      exact Bool.eq_false_iff.mpr named

/-- The clauses of a model belong to its classes. -/
theorem ClosedForm.mem_classes_of_clause {decls : List Java.Declaration} {model : CodeModel}
    (closed : ClosedForm decls model) {clause : Java.ClassSyntax → List String}
    {relation : Table NameSet}
    (union : HoldsUnion (Java.ClassSyntax.NamesType clause) (withClause clause (classesOf decls))
      relation) {name : String} (member : name ∈ relation.keys) : name ∈ model.classes.keys := by
  rw [union.mem_keys_iff] at member
  rw [closed.classes.mem_keys_iff]
  obtain ⟨decl, kept, same⟩ := List.mem_map.mp member
  exact List.mem_map.mpr ⟨decl, (List.mem_filter.mp kept).1, same⟩

theorem ClosedForm.namesAgree {units : List Java.SyntaxUnit} {model : CodeModel}
    (closed : ClosedForm (committedDeclarations units) model) : model.NamesAgree := by
  have methods (name : String) : name ∈ model.methods.keys ↔
      name ∈ model.classes.keys ∨ name ∈ model.enums.keys := by
    rw [closed.methods.mem_keys_iff, closed.classes.mem_keys_iff, closed.enums.mem_keys_iff]
    exact ClassDiagram.mem_names_iff
  constructor
  · rw [closed.uses.names, closed.classes.names]
  · exact fun name => closed.mem_classes_of_clause closed.inherits
  · exact fun name => closed.mem_classes_of_clause closed.implements
  · exact methods
  · -- A used type differs from the name of the class that uses it.
    intro name targets member self
    have found := Table.get?_of_mem_entries closed.uses.nodup_keys member
    obtain ⟨decl, _, same, different, _⟩ := (closed.uses.members name targets found name).mp self
    exact different same.symm
  · -- Names that are declared come from committed declarations, which have a name.
    intro name known
    rw [← methods, closed.methods.mem_keys_iff] at known
    obtain ⟨decl, member, rfl⟩ := List.mem_map.mp known
    rw [Ne, Text.trim_eq_nil_iff]
    exact Bool.eq_false_iff.mp (mem_committedDeclarations member)

/-- The tables of every grown model are well kept, and those of a model that is grown by ingesting
only agree on its names. -/
theorem tables_of_grown :
    (∀ changes : List Change, (CodeModel.grown changes).WellKept) ∧
      ∀ units : List Java.SyntaxUnit, (CodeModel.grown (units.map .ingest)).NamesAgree := by
  constructor
  · exact CodeModel.wellKept_grown
  · intro units
    rw [CodeModel.grown_ingest]
    exact (closedForm_commitAll (committedDeclarations units)).namesAgree

end JavaDiagram
