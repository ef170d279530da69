import Mathlib.Data.List.Nodup
import JavaDiagram.Diagram.ClassDiagram
import JavaDiagram.Proofs.ClosedForm

/-!
# The edges of a class diagram

The edges of an ingested model are told from the committed declarations: which class relates to
which name, and which names are declared anywhere. The renderer checks targets only; sources have a
block because every relation of an ingested model starts at a declared class.
-/

namespace JavaDiagram.ClassDiagram

/-! ### Blocks -/

/-- The blocks of a diagram, enums first. -/
def blocks (model : CodeModel) : List (List String) :=
  model.enums.values.map enumLines ++ model.classes.values.map classLines

/-- Whether a diagram has a block that opens with a name. -/
def HasBlock (model : CodeModel) (name : String) : Prop :=
  ∃ block ∈ blocks model, block.head? = some (openBlock name)

/-- The line of an edge with its arrow and its caption. -/
def edgeText (arrow caption : String) (edge : Edge) : String :=
  edge.source ++ arrow ++ edge.target ++ caption

theorem lines_eq (model : CodeModel) :
    lines model = header :: ((blocks model).flatten ++ (edges model).map Edge.line) := by
  rw [lines, blocks, List.flatten_append, List.flatMap_def, List.flatMap_def]

theorem get?_mem_values {α : Type} {table : Table α} {key : String} {value : α}
    (found : table.get? key = some value) : value ∈ table.values :=
  List.mem_map.mpr ⟨(key, value), Table.mem_entries_of_get? found, rfl⟩

theorem hasBlock_of_class {model : CodeModel} {key : String} {entity : ClassEntity}
    (found : model.classes.get? key = some entity) : HasBlock model entity.name := by
  refine ⟨classLines entity, List.mem_append_right _ ?_, rfl⟩
  exact List.mem_map.mpr ⟨entity, get?_mem_values found, rfl⟩

theorem hasBlock_of_enum {model : CodeModel} {key : String} {entity : EnumEntity}
    (found : model.enums.get? key = some entity) : HasBlock model entity.name := by
  refine ⟨enumLines entity, List.mem_append_left _ ?_, rfl⟩
  exact List.mem_map.mpr ⟨entity, get?_mem_values found, rfl⟩

/-! ### Sections -/

/-- The edges of one kind: source by source, the drawn targets in the order of UTF-8 bytes. -/
def IsSection (kind : EdgeKind) (sources : List String) (drawn : String → String → Prop)
    (edges : List Edge) : Prop :=
  ∃ targets : String → List String,
    (∀ source ∈ sources, NameSet.Sorted (targets source) ∧
      ∀ target, target ∈ targets source ↔ drawn source target) ∧
    edges = sources.flatMap fun source => (targets source).map (Edge.mk kind source)

theorem IsSection.drawn_of_mem {kind : EdgeKind} {sources : List String}
    {drawn : String → String → Prop} {edges : List Edge}
    (is_section : IsSection kind sources drawn edges) {edge : Edge} (member : edge ∈ edges) :
    edge.kind = kind ∧ edge.source ∈ sources ∧ drawn edge.source edge.target := by
  obtain ⟨targets, exact_targets, rfl⟩ := is_section
  obtain ⟨source, known, member⟩ := List.mem_flatMap.mp member
  obtain ⟨target, listed, rfl⟩ := List.mem_map.mp member
  exact ⟨rfl, known, ((exact_targets source known).2 target).mp listed⟩

/-- If only the listed sources draw anything, the edges are those that are drawn. -/
theorem IsSection.mem_iff {kind : EdgeKind} {sources : List String}
    {drawn : String → String → Prop} {edges : List Edge}
    (is_section : IsSection kind sources drawn edges)
    (listed : ∀ source target, drawn source target → source ∈ sources) (edge : Edge) :
    edge ∈ edges ↔ edge.kind = kind ∧ drawn edge.source edge.target := by
  constructor
  · intro member
    obtain ⟨same, _, draws⟩ := is_section.drawn_of_mem member
    exact ⟨same, draws⟩
  · rintro ⟨rfl, draws⟩
    have known := listed edge.source edge.target draws
    obtain ⟨targets, exact_targets, rfl⟩ := is_section
    apply List.mem_flatMap.mpr
    refine ⟨edge.source, known, List.mem_map.mpr ⟨edge.target, ?_, rfl⟩⟩
    exact ((exact_targets edge.source known).2 edge.target).mpr draws

theorem IsSection.nodup {kind : EdgeKind} {sources : List String}
    {drawn : String → String → Prop} {edges : List Edge}
    (is_section : IsSection kind sources drawn edges) (distinct : sources.Nodup) : edges.Nodup := by
  obtain ⟨targets, exact_targets, rfl⟩ := is_section
  rw [List.nodup_flatMap]
  constructor
  · intro source known
    apply List.Nodup.map _ (exact_targets source known).1.nodup
    intro target other same
    exact (Edge.mk.inj same).2.2
  · apply distinct.imp
    intro source other different edge member member'
    obtain ⟨target, _, rfl⟩ := List.mem_map.mp member
    obtain ⟨target', _, same⟩ := List.mem_map.mp member'
    exact different (Edge.mk.inj same).2.1.symm

/-- Sections of different kinds share no edge. -/
theorem IsSection.disjoint {kind kind' : EdgeKind} {sources sources' : List String}
    {drawn drawn' : String → String → Prop} {edges edges' : List Edge}
    (first : IsSection kind sources drawn edges) (second : IsSection kind' sources' drawn' edges')
    (different : kind ≠ kind') : edges.Disjoint edges' := by
  intro edge member member'
  rw [← (first.drawn_of_mem member).1, ← (second.drawn_of_mem member').1] at different
  exact different rfl

/-- The lines of a section all have the arrow and the caption of its kind. -/
theorem IsSection.map_line {kind : EdgeKind} {sources : List String}
    {drawn : String → String → Prop} {edges : List Edge}
    (is_section : IsSection kind sources drawn edges) (arrow caption : String)
    (written : ∀ source target, Edge.line ⟨kind, source, target⟩ =
      edgeText arrow caption ⟨kind, source, target⟩) :
    edges.map Edge.line = edges.map (edgeText arrow caption) := by
  apply List.map_congr_left
  intro edge member
  obtain ⟨rfl, _⟩ := is_section.drawn_of_mem member
  exact written edge.source edge.target

/-- A relation in closed form is drawn as a section, whatever the test for its targets. -/
theorem isSection_edgesOf {kind : EdgeKind} {shown : String → String → Bool}
    {related : Java.ClassSyntax → String → Prop} {decls : List Java.ClassSyntax}
    {relation : Table NameSet} {drawn : String → String → Prop}
    (union : HoldsUnion related decls relation)
    (agree : ∀ source target, drawn source target ↔
      (∃ decl ∈ decls, decl.name = source ∧ related decl target) ∧ shown source target = true) :
    IsSection kind (decls.map (·.name)).eraseDups drawn (edgesOf kind shown relation) := by
  refine ⟨fun source => ((relation.get? source).getD []).filter (shown source), ?_, ?_⟩
  · intro source known
    rw [← union.names] at known
    obtain ⟨set, found⟩ := Table.mem_keys_iff.mp known
    dsimp only
    rw [found, Option.getD_some]
    refine ⟨(union.sorted source set found).filter _, fun target => ?_⟩
    rw [List.mem_filter, union.members source set found, agree]
  · rw [← union.names]
    apply Table.flatMap_entries union.nodup_keys
    intro source set found
    dsimp only
    rw [found, Option.getD_some]

/-! ### Declared names -/

/-- The names of the classes and interfaces among several declarations. -/
def classNames (decls : List Java.Declaration) : List String :=
  (classesOf decls).map (·.name)

theorem mem_names_iff {decls : List Java.Declaration} {name : String} :
    name ∈ decls.map (·.name) ↔
      name ∈ classNames decls ∨ name ∈ (enumsOf decls).map (·.name) := by
  induction decls with
  | nil => simp [classNames, classesOf, enumsOf]
  | cons decl rest ih =>
    rw [List.map_cons, List.mem_cons, ih]
    cases decl with
    | ofClass decl =>
      rw [← or_assoc]
      simp [classNames, classesOf, enumsOf, Java.Declaration.class?, Java.Declaration.enum?,
        Java.Declaration.name]
    | ofEnum decl =>
      rw [or_left_comm]
      simp [classNames, classesOf, enumsOf, Java.Declaration.class?, Java.Declaration.enum?,
        Java.Declaration.name]

theorem exists_withClause_iff (clause : Java.ClassSyntax → List String)
    (decls : List Java.ClassSyntax) (source target : String) :
    (∃ decl ∈ withClause clause decls, decl.name = source ∧ decl.NamesType clause target) ↔
      ∃ decl ∈ decls, decl.name = source ∧ decl.NamesType clause target := by
  constructor
  · rintro ⟨decl, member, named⟩
    exact ⟨decl, (List.mem_filter.mp member).1, named⟩
  · rintro ⟨decl, member, same, text, listed, normal⟩
    have kept : decl ∈ withClause clause decls :=
      List.mem_filter.mpr ⟨member, by simpa using List.ne_nil_of_mem listed⟩
    exact ⟨decl, kept, same, text, listed, normal⟩

/-- Whether a class declared as `source` uses a type that is declared at all. -/
def DrawsUse (decls : List Java.Declaration) (source target : String) : Prop :=
  (∃ decl ∈ classesOf decls, decl.name = source ∧ decl.UsesType target) ∧
    target ∈ decls.map (·.name)

/-- Whether a class declared as `source` names, in one of its clauses, a type that is declared as a
class or interface. -/
def DrawsClause (clause : Java.ClassSyntax → List String) (decls : List Java.Declaration)
    (source target : String) : Prop :=
  (∃ decl ∈ classesOf decls, decl.name = source ∧ decl.NamesType clause target) ∧
    target ∈ classNames decls

/-- Whether an edge is told by the declarations. -/
def Drawn (decls : List Java.Declaration) (edge : Edge) : Prop :=
  match edge.kind with
  | .uses => DrawsUse decls edge.source edge.target
  | .inherits => DrawsClause (·.superTypes) decls edge.source edge.target
  | .implements => DrawsClause (·.interfaces) decls edge.source edge.target

theorem mem_classNames_of_drawsUse {decls : List Java.Declaration} {source target : String}
    (drawn : DrawsUse decls source target) : source ∈ (classNames decls).eraseDups := by
  obtain ⟨⟨decl, declared, name, _⟩, _⟩ := drawn
  exact List.mem_eraseDups.mpr (List.mem_map.mpr ⟨decl, declared, name⟩)

theorem mem_withClause_of_drawsClause {clause : Java.ClassSyntax → List String}
    {decls : List Java.Declaration} {source target : String}
    (drawn : DrawsClause clause decls source target) :
    source ∈ ((withClause clause (classesOf decls)).map (·.name)).eraseDups := by
  obtain ⟨decl, declared, name, _⟩ := (exists_withClause_iff clause _ source target).mpr drawn.1
  exact List.mem_eraseDups.mpr (List.mem_map.mpr ⟨decl, declared, name⟩)

end JavaDiagram.ClassDiagram

namespace JavaDiagram.ClosedForm

open ClassDiagram

variable {decls : List Java.Declaration} {model : CodeModel}

theorem contains_class_iff (closed : ClosedForm decls model) (name : String) :
    model.classes.contains name = true ↔ name ∈ classNames decls := by
  rw [Table.contains_iff, closed.classes.names, List.mem_eraseDups, classNames]

theorem isKnown_iff (closed : ClosedForm decls model) (name : String) :
    model.isKnown name = true ↔ name ∈ decls.map (·.name) := by
  rw [CodeModel.isKnown, Bool.or_eq_true, closed.contains_class_iff, Table.contains_iff,
    closed.enums.names, List.mem_eraseDups, mem_names_iff]

theorem hasBlock_of_mem_classNames (closed : ClosedForm decls model) {name : String}
    (declared : name ∈ classNames decls) : HasBlock model name := by
  have known := (closed.contains_class_iff name).mpr declared
  obtain ⟨entity, found⟩ := Table.mem_keys_iff.mp (Table.contains_iff.mp known)
  obtain ⟨decl, _, rfl, rfl⟩ := closed.classes.exists_item found
  exact hasBlock_of_class found

theorem hasBlock_of_mem_names (closed : ClosedForm decls model) {name : String}
    (declared : name ∈ decls.map (·.name)) : HasBlock model name := by
  rcases mem_names_iff.mp declared with isClass | isEnum
  · exact closed.hasBlock_of_mem_classNames isClass
  · rw [← List.mem_eraseDups, ← closed.enums.names] at isEnum
    obtain ⟨entity, found⟩ := Table.mem_keys_iff.mp isEnum
    obtain ⟨decl, _, rfl, rfl⟩ := closed.enums.exists_item found
    exact hasBlock_of_enum found

theorem uses_section (closed : ClosedForm decls model) :
    IsSection .uses (classNames decls).eraseDups (DrawsUse decls)
      (edgesOf .uses (fun source target => target != source && model.isKnown target)
        model.uses) := by
  apply isSection_edgesOf closed.uses
  intro source target
  rw [DrawsUse, Bool.and_eq_true, bne_iff_ne, closed.isKnown_iff]
  constructor
  · -- The renderer's test that source and target differ rejects nothing: no class uses itself.
    rintro ⟨⟨decl, member, rfl, uses⟩, declared⟩
    exact ⟨⟨decl, member, rfl, uses⟩, uses.1, declared⟩
  · rintro ⟨used, _, declared⟩
    exact ⟨used, declared⟩

theorem clause_section (closed : ClosedForm decls model) (kind : EdgeKind)
    {clause : Java.ClassSyntax → List String} {relation : Table NameSet}
    (union : HoldsUnion (Java.ClassSyntax.NamesType clause) (withClause clause (classesOf decls))
      relation) :
    IsSection kind ((withClause clause (classesOf decls)).map (·.name)).eraseDups
      (DrawsClause clause decls)
      (edgesOf kind (fun _ target => model.classes.contains target) relation) := by
  apply isSection_edgesOf union
  intro source target
  rw [DrawsClause, exists_withClause_iff, closed.contains_class_iff]

/-- The edges of a diagram are those that the declarations tell. -/
theorem mem_edges_iff (closed : ClosedForm decls model) (edge : Edge) :
    edge ∈ edges model ↔ Drawn decls edge := by
  have uses := closed.uses_section.mem_iff (fun _ _ => mem_classNames_of_drawsUse) edge
  have inherits := (closed.clause_section .inherits closed.inherits).mem_iff
    (fun _ _ => mem_withClause_of_drawsClause) edge
  have implements := (closed.clause_section .implements closed.implements).mem_iff
    (fun _ _ => mem_withClause_of_drawsClause) edge
  rw [edges, List.mem_append, List.mem_append, uses, inherits, implements, Drawn]
  cases edge.kind <;> simp

/-- No edge is drawn twice. -/
theorem nodup_edges (closed : ClosedForm decls model) : (edges model).Nodup := by
  have uses := closed.uses_section
  have inherits := closed.clause_section .inherits closed.inherits
  have implements := closed.clause_section .implements closed.implements
  have front := (uses.nodup (nodup_eraseDups _)).append (inherits.nodup (nodup_eraseDups _))
    (uses.disjoint inherits (by decide))
  apply front.append (implements.nodup (nodup_eraseDups _))
  exact List.disjoint_append_left.mpr
    ⟨uses.disjoint implements (by decide), inherits.disjoint implements (by decide)⟩

theorem hasBlock_of_drawsUse (closed : ClosedForm decls model) {source target : String}
    (drawn : DrawsUse decls source target) : HasBlock model source ∧ HasBlock model target := by
  obtain ⟨⟨decl, declared, name, _⟩, known⟩ := drawn
  have source_known : source ∈ classNames decls := List.mem_map.mpr ⟨decl, declared, name⟩
  exact ⟨closed.hasBlock_of_mem_classNames source_known, closed.hasBlock_of_mem_names known⟩

theorem hasBlock_of_drawsClause (closed : ClosedForm decls model)
    {clause : Java.ClassSyntax → List String} {source target : String}
    (drawn : DrawsClause clause decls source target) :
    HasBlock model source ∧ HasBlock model target := by
  obtain ⟨⟨decl, declared, name, _⟩, known⟩ := drawn
  have source_known : source ∈ classNames decls := List.mem_map.mpr ⟨decl, declared, name⟩
  exact ⟨closed.hasBlock_of_mem_classNames source_known, closed.hasBlock_of_mem_classNames known⟩

end JavaDiagram.ClosedForm

namespace JavaDiagram.ClassDiagram

/-- The edge section of an ingested model lists, relation by relation, the declared targets of the
declared classes. No edge is drawn twice, and both ends of every edge have a block. -/
theorem edges_ingestAll (units : List Java.SyntaxUnit) :
    let model := (({} : CodeModel).ingestAll units).1
    let decls := committedDeclarations units
    ∃ uses inherits implements : List Edge,
      render model = Text.unlines (header :: ((blocks model).flatten ++
        (uses.map (edgeText " --> " " : uses") ++
          inherits.map (edgeText " --|> " " : extends") ++
          implements.map (edgeText " ..|> " " : implements")))) ∧
      IsSection .uses (classNames decls).eraseDups (DrawsUse decls) uses ∧
      IsSection .inherits ((withClause (·.superTypes) (classesOf decls)).map (·.name)).eraseDups
        (DrawsClause (·.superTypes) decls) inherits ∧
      IsSection .implements ((withClause (·.interfaces) (classesOf decls)).map (·.name)).eraseDups
        (DrawsClause (·.interfaces) decls) implements ∧
      (uses ++ inherits ++ implements).Nodup ∧
      ∀ edge ∈ uses ++ inherits ++ implements,
        HasBlock model edge.source ∧ HasBlock model edge.target := by
  intro model decls
  have closed : ClosedForm decls model := (closedForm_iff_ingestAll units model).mpr rfl
  have uses := closed.uses_section
  have inherits := closed.clause_section .inherits closed.inherits
  have implements := closed.clause_section .implements closed.implements
  refine ⟨_, _, _, ?_, uses, inherits, implements, closed.nodup_edges, ?_⟩
  · rw [render, lines_eq, edges, List.map_append, List.map_append,
      uses.map_line " --> " " : uses" fun _ _ => rfl,
      inherits.map_line " --|> " " : extends" fun _ _ => rfl,
      implements.map_line " ..|> " " : implements" fun _ _ => rfl]
  · intro edge member
    rw [List.mem_append, List.mem_append] at member
    rcases member with (member | member) | member
    · exact closed.hasBlock_of_drawsUse (uses.drawn_of_mem member).2.2
    · exact closed.hasBlock_of_drawsClause (inherits.drawn_of_mem member).2.2
    · exact closed.hasBlock_of_drawsClause (implements.drawn_of_mem member).2.2

end JavaDiagram.ClassDiagram
