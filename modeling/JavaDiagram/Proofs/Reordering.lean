import JavaDiagram.Proofs.Collisions

/-!
# Reordered sources

Units and the declarations inside them may come in any order. Relations between names are unions over
all declarations, so they stay the same even if names collide, and with them the edges of the class
diagram. Entities and method records come from the last declaration of a name, so they stay the same
if there is only one.
-/

namespace JavaDiagram

/-! ### Tables as maps -/

/-- Whether two tables differ in the order of their entries at most. -/
structure Table.SameMap {α : Type} (table other : Table α) : Prop where
  values : ∀ key, table.get? key = other.get? key
  entries : table.entries.Perm other.entries

theorem Table.mem_entries_iff {α : Type} {table : Table α} (distinct : table.keys.Nodup)
    (key : String) (value : α) : (key, value) ∈ table.entries ↔ table.get? key = some value :=
  ⟨get?_of_mem_entries distinct, mem_entries_of_get?⟩

theorem Table.sameMap_of_get? {α : Type} {table other : Table α} (distinct : table.keys.Nodup)
    (distinct' : other.keys.Nodup) (values : ∀ key, table.get? key = other.get? key) :
    table.SameMap other := by
  refine ⟨values, ?_⟩
  -- No key comes twice, so the entries are told apart by what is found under their keys.
  apply (List.perm_ext_iff_of_nodup distinct.of_map distinct'.of_map).mpr
  rintro ⟨key, value⟩
  rw [mem_entries_iff distinct, mem_entries_iff distinct', values]

theorem HoldsUnion.sameMap {related : Java.ClassSyntax → String → Prop}
    {decls decls' : List Java.ClassSyntax} {table other : Table NameSet}
    (first : HoldsUnion related decls table) (second : HoldsUnion related decls' other)
    (perm : decls.Perm decls') : table.SameMap other := by
  apply Table.sameMap_of_get?
  · exact first.nodup_keys
  · exact second.nodup_keys
  · exact first.get?_eq second fun _ => perm.mem_iff

section

variable {α β : Type} {name : β → String} {value : β → α} {items items' : List β}
  {table other : Table α}

theorem HoldsLast.perm_keys (first : HoldsLast name value items table)
    (second : HoldsLast name value items' other) (perm : items.Perm items') :
    table.keys.Perm other.keys := by
  apply (List.perm_ext_iff_of_nodup first.nodup_keys second.nodup_keys).mpr
  intro key
  rw [first.mem_keys_iff, second.mem_keys_iff]
  exact (perm.map name).mem_iff

/-- Among items of distinct names the only one of a name is its last one. -/
theorem HoldsLast.get?_eq_some_iff (holds : HoldsLast name value items table)
    (distinct : (items.map name).Nodup) (key : String) (held : α) :
    table.get? key = some held ↔ ∃ item ∈ items, name item = key ∧ value item = held := by
  constructor
  · exact holds.exists_item
  · rintro ⟨item, member, rfl, rfl⟩
    have known := (holds.mem_keys_iff (name item)).mpr (List.mem_map.mpr ⟨item, member, rfl⟩)
    obtain ⟨held, found⟩ := Table.mem_keys_iff.mp known
    obtain ⟨last, member', same, rfl⟩ := holds.exists_item found
    rw [found, List.inj_on_of_nodup_map distinct member' member same]

theorem HoldsLast.sameMap (first : HoldsLast name value items table)
    (second : HoldsLast name value items' other) (perm : items.Perm items')
    (distinct : (items.map name).Nodup) : table.SameMap other := by
  apply Table.sameMap_of_get?
  · exact first.nodup_keys
  · exact second.nodup_keys
  · intro key
    have distinct' := (perm.map name).nodup_iff.mp distinct
    ext held
    rw [first.get?_eq_some_iff distinct, second.get?_eq_some_iff distinct']
    simp only [perm.mem_iff]

end

/-! ### Declarations in another order -/

/-- Whether units come from others by reordering the units and the declarations inside each. -/
def Reordered (units units' : List Java.SyntaxUnit) : Prop :=
  ∃ between : List Java.SyntaxUnit, units.Perm between ∧
    List.Forall₂
      (fun unit unit' => unit.origin = unit'.origin ∧ unit.declarations.Perm unit'.declarations)
      between units'

theorem Reordered.perm_committed {units units' : List Java.SyntaxUnit}
    (reordered : Reordered units units') :
    (committedDeclarations units).Perm (committedDeclarations units') := by
  obtain ⟨between, moved, inside⟩ := reordered
  -- First the units move as they are, then the declarations inside them.
  have first : (committedDeclarations units).Perm (committedDeclarations between) :=
    moved.flatMap_right _
  have second : (committedDeclarations between).Perm (committedDeclarations units') := by
    clear moved first
    induction inside with
    | nil => exact .refl _
    | cons same _ ih => exact (same.2.filterMap _).append ih
  exact first.trans second

/-- The names of the declarations of one sort come in the order of all names. -/
theorem map_filterMap_sublist {β : Type} {part : Java.Declaration → Option β} {label : β → String}
    (agree : ∀ decl item, part decl = some item → label item = decl.name)
    (decls : List Java.Declaration) :
    ((decls.filterMap part).map label).Sublist (decls.map (·.name)) := by
  induction decls with
  | nil => exact .slnil
  | cons decl rest ih =>
    cases kept : part decl with
    | none =>
      rw [List.filterMap_cons_none kept]
      exact ih.cons decl.name
    | some item =>
      rw [List.filterMap_cons_some kept, List.map_cons, agree decl item kept]
      exact ih.cons_cons decl.name

theorem nodup_classNames {decls : List Java.Declaration} (distinct : (decls.map (·.name)).Nodup) :
    ((classesOf decls).map (·.name)).Nodup := by
  apply List.Nodup.sublist (map_filterMap_sublist ?_ decls) distinct
  intro decl item kept
  cases decl with
  | ofClass decl => rw [← Option.some.inj kept]; rfl
  | ofEnum decl => cases kept

theorem nodup_enumNames {decls : List Java.Declaration} (distinct : (decls.map (·.name)).Nodup) :
    ((enumsOf decls).map (·.name)).Nodup := by
  apply List.Nodup.sublist (map_filterMap_sublist ?_ decls) distinct
  intro decl item kept
  cases decl with
  | ofClass decl => cases kept
  | ofEnum decl => rw [← Option.some.inj kept]; rfl

theorem drawn_iff_of_perm {decls decls' : List Java.Declaration} (perm : decls.Perm decls')
    (edge : ClassDiagram.Edge) :
    ClassDiagram.Drawn decls edge ↔ ClassDiagram.Drawn decls' edge := by
  have classes (decl : Java.ClassSyntax) : decl ∈ classesOf decls ↔ decl ∈ classesOf decls' :=
    (perm.filterMap _).mem_iff
  have names (name : String) : name ∈ decls.map (·.name) ↔ name ∈ decls'.map (·.name) :=
    (perm.map _).mem_iff
  have class_names (name : String) :
      name ∈ ClassDiagram.classNames decls ↔ name ∈ ClassDiagram.classNames decls' :=
    ((perm.filterMap _).map _).mem_iff
  unfold ClassDiagram.Drawn ClassDiagram.DrawsUse ClassDiagram.DrawsClause
  simp only [classes, names, class_names]

/-! ### Models -/

/-- What two models have in common if they were built from the same declarations in any order. -/
structure SameRelations (model other : CodeModel) : Prop where
  classes : model.classes.keys.Perm other.classes.keys
  enums : model.enums.keys.Perm other.enums.keys
  uses : model.uses.SameMap other.uses
  inherits : model.inherits.SameMap other.inherits
  implements : model.implements.SameMap other.implements
  edges : ((ClassDiagram.edges model).map (·.line)).Perm ((ClassDiagram.edges other).map (·.line))

/-- Whether the six tables of two models differ in the order of their entries at most. -/
structure SameTables (model other : CodeModel) : Prop where
  classes : model.classes.SameMap other.classes
  enums : model.enums.SameMap other.enums
  uses : model.uses.SameMap other.uses
  inherits : model.inherits.SameMap other.inherits
  implements : model.implements.SameMap other.implements
  methods : model.methods.SameMap other.methods

namespace ClosedForm

variable {decls decls' : List Java.Declaration} {model other : CodeModel}

theorem perm_edges (first : ClosedForm decls model) (second : ClosedForm decls' other)
    (perm : decls.Perm decls') :
    (ClassDiagram.edges model).Perm (ClassDiagram.edges other) := by
  apply (List.perm_ext_iff_of_nodup first.nodup_edges second.nodup_edges).mpr
  intro edge
  rw [first.mem_edges_iff, second.mem_edges_iff]
  exact drawn_iff_of_perm perm edge

theorem sameRelations (first : ClosedForm decls model) (second : ClosedForm decls' other)
    (perm : decls.Perm decls') : SameRelations model other := by
  -- Taking the declarations of one sort and dropping empty clauses both keep a reordering.
  have classes : (classesOf decls).Perm (classesOf decls') := perm.filterMap _
  have enums : (enumsOf decls).Perm (enumsOf decls') := perm.filterMap _
  constructor
  · exact first.classes.perm_keys second.classes classes
  · exact first.enums.perm_keys second.enums enums
  · exact first.uses.sameMap second.uses classes
  · exact first.inherits.sameMap second.inherits (classes.filter _)
  · exact first.implements.sameMap second.implements (classes.filter _)
  · exact (first.perm_edges second perm).map _

theorem sameTables (first : ClosedForm decls model) (second : ClosedForm decls' other)
    (perm : decls.Perm decls') (distinct : (decls.map (·.name)).Nodup) : SameTables model other := by
  have relations := first.sameRelations second perm
  constructor
  · exact first.classes.sameMap second.classes (perm.filterMap _) (nodup_classNames distinct)
  · exact first.enums.sameMap second.enums (perm.filterMap _) (nodup_enumNames distinct)
  · exact relations.uses
  · exact relations.inherits
  · exact relations.implements
  · exact first.methods.sameMap second.methods perm distinct

end ClosedForm

/-- Ingesting the same declarations in another order gives the same names, relations and edges. If no
name is declared twice, it gives the same tables up to the order of their entries. -/
theorem ingestAll_reordered {units units' : List Java.SyntaxUnit}
    (reordered : Reordered units units') :
    SameRelations (({} : CodeModel).ingestAll units).1 (({} : CodeModel).ingestAll units').1 ∧
      (((committedDeclarations units).map (·.name)).Nodup →
        SameTables (({} : CodeModel).ingestAll units).1 (({} : CodeModel).ingestAll units').1) := by
  have first := (closedForm_iff_ingestAll units _).mpr rfl
  have second := (closedForm_iff_ingestAll units' _).mpr rfl
  have perm := reordered.perm_committed
  exact ⟨first.sameRelations second perm, first.sameTables second perm⟩

/-- Two units, one of them with two declarations. -/
def sounds : List Java.SyntaxUnit :=
  [⟨"a", [.ok (.ofClass tone), .ok (.ofClass { tone with name := "Noise" })]⟩,
    ⟨"b", [.ok (.ofEnum { toneEnum with name := "Pitch" })]⟩]

/-- The same declarations from the last to the first. -/
def soundsBackwards : List Java.SyntaxUnit :=
  [⟨"b", [.ok (.ofEnum { toneEnum with name := "Pitch" })]⟩,
    ⟨"a", [.ok (.ofClass { tone with name := "Noise" }), .ok (.ofClass tone)]⟩]

theorem sounds_reordered :
    Reordered sounds soundsBackwards ∧ ((committedDeclarations sounds).map (·.name)).Nodup ∧
      SameTables (({} : CodeModel).ingestAll sounds).1
        (({} : CodeModel).ingestAll soundsBackwards).1 := by
  have reordered : Reordered sounds soundsBackwards :=
    ⟨sounds.reverse, (List.reverse_perm sounds).symm,
      .cons ⟨rfl, .refl _⟩ (.cons ⟨rfl, .swap _ _ _⟩ .nil)⟩
  have distinct : ((committedDeclarations sounds).map (·.name)).Nodup := by decide
  exact ⟨reordered, distinct, (ingestAll_reordered reordered).2 distinct⟩

end JavaDiagram
