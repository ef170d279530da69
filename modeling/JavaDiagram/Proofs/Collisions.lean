import JavaDiagram.Proofs.Edges

/-!
# Collisions of names

Classes and enums have tables of their own, but one table holds the method records of both. A
report lists a name when a declaration replaces an entity of its own sort. A class and an enum that
share their name replace no entity of each other, so nothing is reported, yet the later one takes
the method records of the name.
-/

namespace JavaDiagram

/-! ### Sorts of declarations -/

/-- Whether a declaration is an enum; any other is a class or an interface. -/
def Java.Declaration.isEnum : Java.Declaration → Bool
  | ofClass _ => false
  | ofEnum _ => true

/-- Whether an earlier declaration has the name and the sort of another. -/
def Redeclares (earlier : List Java.Declaration) (decl : Java.Declaration) : Prop :=
  ∃ other ∈ earlier, other.name = decl.name ∧ other.isEnum = decl.isEnum

instance (earlier : List Java.Declaration) (decl : Java.Declaration) :
    Decidable (Redeclares earlier decl) :=
  inferInstanceAs (Decidable (∃ other ∈ earlier, _))

/-- The names of all declarations of one sort, if only those have the part that is listed. -/
theorem mem_names_of_sort {β : Type} {part : Java.Declaration → Option β} {label : β → String}
    {sort : Bool}
    (agree : ∀ decl, (part decl).map label = if decl.isEnum = sort then some decl.name else none)
    {decls : List Java.Declaration} {name : String} :
    name ∈ (decls.filterMap part).map label ↔
      ∃ decl ∈ decls, decl.name = name ∧ decl.isEnum = sort := by
  rw [List.map_filterMap, List.mem_filterMap]
  simp only [agree, Option.ite_none_right_eq_some, Option.some.injEq]
  constructor
  · rintro ⟨decl, member, same, named⟩
    exact ⟨decl, member, named, same⟩
  · rintro ⟨decl, member, named, same⟩
    exact ⟨decl, member, same, named⟩

theorem mem_classNames_iff {decls : List Java.Declaration} {name : String} :
    name ∈ ClassDiagram.classNames decls ↔
      ∃ decl ∈ decls, decl.name = name ∧ decl.isEnum = false :=
  mem_names_of_sort fun decl => by cases decl <;> rfl

theorem mem_enumNames_iff {decls : List Java.Declaration} {name : String} :
    name ∈ (enumsOf decls).map (·.name) ↔
      ∃ decl ∈ decls, decl.name = name ∧ decl.isEnum = true :=
  mem_names_of_sort fun decl => by cases decl <;> rfl

/-! ### What a commit replaces -/

namespace ClosedForm

variable {decls : List Java.Declaration} {model : CodeModel}

theorem contains_enum_iff (closed : ClosedForm decls model) (name : String) :
    model.enums.contains name = true ↔ name ∈ (enumsOf decls).map (·.name) := by
  rw [Table.contains_iff, closed.enums.names, List.mem_eraseDups]

/-- A declaration replaces an entity exactly if its name was declared before as the same sort. -/
theorem replaces_iff (closed : ClosedForm decls model) (decl : Java.Declaration) :
    model.replaces decl.built = true ↔ Redeclares decls decl := by
  cases decl with
  | ofClass decl => exact (closed.contains_class_iff decl.name).trans mem_classNames_iff
  | ofEnum decl => exact (closed.contains_enum_iff decl.name).trans mem_enumNames_iff

end ClosedForm

namespace CodeModel

theorem get?_classes_commit (model : CodeModel) {decl : Java.Declaration}
    (fresh : model.replaces decl.built = false) {key : String} {entity : ClassEntity}
    (found : model.classes.get? key = some entity) :
    (model.commit decl.built).classes.get? key = some entity := by
  show (model.commitAll [decl]).classes.get? key = some entity
  rw [commitAll_eq]
  cases decl with
  | ofClass decl => exact Table.get?_put_of_fresh decl.entity fresh found
  | ofEnum decl => exact found

theorem get?_enums_commit (model : CodeModel) {decl : Java.Declaration}
    (fresh : model.replaces decl.built = false) {key : String} {entity : EnumEntity}
    (found : model.enums.get? key = some entity) :
    (model.commit decl.built).enums.get? key = some entity := by
  show (model.commitAll [decl]).enums.get? key = some entity
  rw [commitAll_eq]
  cases decl with
  | ofClass decl => exact found
  | ofEnum decl => exact Table.get?_put_of_fresh decl.entity fresh found

theorem methodsOf_commit (model : CodeModel) (decl : Java.Declaration) (owner : String) :
    (model.commit decl.built).methodsOf owner =
      if owner = decl.name then decl.records else model.methodsOf owner := by
  rw [methodsOf, methods_commit, Table.get?_put]
  split <;> rfl

/-! ### Reports -/

theorem ingest_append (model : CodeModel) (origin : String)
    (front back : List (Except Java.DeclarationError Java.Declaration)) :
    model.ingest ⟨origin, front ++ back⟩ = back.foldl ingestOne (model.ingest ⟨origin, front⟩) :=
  List.foldl_append

theorem ingestOne_ok (state : CodeModel × IngestReport) {decl : Java.Declaration}
    (named : Text.isAllBlank decl.name = false) :
    ingestOne state (.ok decl) =
      (state.1.commit decl.built,
        { state.2 with
          ingested := state.2.ingested ++ [decl.name]
          collisions :=
            if state.1.replaces decl.built then state.2.collisions ++ [decl.name]
            else state.2.collisions }) := by
  have name : decl.built.name = decl.name := by cases decl <;> rfl
  have built : (Except.ok decl >>= Java.Declaration.build state.2.origin) = .ok decl.built := by
    show decl.build state.2.origin = _
    rw [Java.Declaration.build_eq, named]
    rfl
  unfold ingestOne
  dsimp only
  rw [built, ← name]

end CodeModel

/-- What becomes of a model and its report when one more declaration is taken in after `earlier`
ones. The name is reported if it was declared before as the same sort, and then only. Unreported,
the declaration replaces no entity, but it always takes the method records of its name. -/
structure TakesIn (earlier : List Java.Declaration) (decl : Java.Declaration)
    (before after : CodeModel × IngestReport) : Prop where
  model : after.1 = before.1.commit decl.built
  known : before.1.isKnown decl.name = true ↔ ∃ other ∈ earlier, other.name = decl.name
  collisions : after.2.collisions =
    before.2.collisions ++ if Redeclares earlier decl then [decl.name] else []
  classes : ¬ Redeclares earlier decl → ∀ key entity,
    before.1.classes.get? key = some entity → after.1.classes.get? key = some entity
  enums : ¬ Redeclares earlier decl → ∀ key entity,
    before.1.enums.get? key = some entity → after.1.enums.get? key = some entity
  methods : ∀ owner, after.1.methodsOf owner =
    if owner = decl.name then decl.records else before.1.methodsOf owner

/-- Taking in one more named declaration of a unit, after any units. -/
theorem ingest_takesIn (units : List Java.SyntaxUnit) (origin : String)
    (front : List (Except Java.DeclarationError Java.Declaration)) {decl : Java.Declaration}
    (named : Text.isAllBlank decl.name = false) :
    TakesIn (committedDeclarations (units ++ [⟨origin, front⟩])) decl
      ((({} : CodeModel).ingestAll units).1.ingest ⟨origin, front⟩)
      ((({} : CodeModel).ingestAll units).1.ingest ⟨origin, front ++ [.ok decl]⟩) := by
  rw [CodeModel.ingest_append, List.foldl_cons, List.foldl_nil, CodeModel.ingestOne_ok _ named]
  generalize state_eq : (({} : CodeModel).ingestAll units).1.ingest ⟨origin, front⟩ = state
  -- The model so far is that of all earlier declarations, so its closed form is known.
  have model : state.1 =
      ({} : CodeModel).commitAll (committedDeclarations (units ++ [⟨origin, front⟩])) := by
    rw [← state_eq, CodeModel.ingest_model, CodeModel.ingestAll_model, ← CodeModel.commitAll_append,
      committedDeclarations, committedDeclarations, List.flatMap_append, List.flatMap_singleton]
  have closed : ClosedForm (committedDeclarations (units ++ [⟨origin, front⟩])) state.1 := by
    rw [model]
    exact closedForm_commitAll _
  have replaces := closed.replaces_iff decl
  have fresh (unreported : ¬ Redeclares (committedDeclarations (units ++ [⟨origin, front⟩])) decl) :
      state.1.replaces decl.built = false :=
    Bool.eq_false_iff.mpr (mt replaces.mp unreported)
  constructor
  · rfl
  · rw [closed.isKnown_iff, List.mem_map]
  · dsimp only
    split
    next old => rw [if_pos (replaces.mp old)]
    next new => rw [if_neg (mt replaces.mpr new), List.append_nil]
  · exact fun unreported _ _ found => state.1.get?_classes_commit (fresh unreported) found
  · exact fun unreported _ _ found => state.1.get?_enums_commit (fresh unreported) found
  · exact state.1.methodsOf_commit decl

/-- A class with one method. -/
def tone : Java.ClassSyntax where
  name := "Tone"
  methods := [{ name := "play", body := some ⟨"", []⟩ }]

/-- An enum of the same name. -/
def toneEnum : Java.EnumSyntax where
  name := "Tone"
  constants := ["LOW", "HIGH"]

theorem tone_takesIn :
    Text.isAllBlank "Tone" = false ∧
      TakesIn [.ofClass tone] (.ofEnum toneEnum)
        ((({} : CodeModel).ingestAll [⟨"a", [.ok (.ofClass tone)]⟩]).1.ingest ⟨"b", []⟩)
        ((({} : CodeModel).ingestAll [⟨"a", [.ok (.ofClass tone)]⟩]).1.ingest
          ⟨"b", [.ok (.ofEnum toneEnum)]⟩) :=
  ⟨by decide, ingest_takesIn [⟨"a", [.ok (.ofClass tone)]⟩] "b" [] (by decide)⟩

/-- Not every known name is reported when it is declared again: an enum takes the methods of a class
in silence. -/
theorem not_reported_iff_known :
    ¬ ∀ (units : List Java.SyntaxUnit) (origin : String)
        (front : List (Except Java.DeclarationError Java.Declaration)) (decl : Java.Declaration),
      Text.isAllBlank decl.name = false →
        let before := (({} : CodeModel).ingestAll units).1.ingest ⟨origin, front⟩
        let after := (({} : CodeModel).ingestAll units).1.ingest ⟨origin, front ++ [.ok decl]⟩
        (after.2.collisions = before.2.collisions ++ [decl.name] ↔
          before.1.isKnown decl.name = true) := by
  intro claim
  have reported := (claim [⟨"a", [.ok (.ofClass tone)]⟩] "b" [] (.ofEnum toneEnum) (by decide)).mpr
    (by decide)
  exact absurd reported (by decide)

end JavaDiagram
