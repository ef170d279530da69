import JavaDiagram.Proofs.Members

/-!
# Names and types in a class diagram

A class diagram shows names and types. In the diagram of an ingested model every shown name is told
by a committed declaration, and every shown type is the normal form of a type that one of them
writes.
-/

namespace JavaDiagram

/-! ### Names and types that are shown -/

/-- The names in the line of a field. -/
def FieldEntity.names (field : FieldEntity) : List String :=
  field.name :: field.annotations

namespace Member

/-- The names in the line of a member. -/
def names (member : Member) : List String :=
  member.name :: (member.annotations ++ member.params.map (·.name))

/-- The types in the line of a member. -/
def types (member : Member) : List String :=
  member.returnType.toList ++ member.params.map (·.typeName)

end Member

/-- The names in the block of an enum. -/
def EnumEntity.names (entity : EnumEntity) : List String :=
  entity.name :: entity.constants

namespace ClassEntity

/-- All members in the block of a class, in the order of their groups. -/
def members (entity : ClassEntity) : List Member :=
  entity.constructors ++ (entity.accessors ++ (entity.userMethods ++ entity.frameworkMethods))

/-- The names in the block of a class. -/
def names (entity : ClassEntity) : List String :=
  entity.name ::
    (entity.annotations ++ (entity.fields.flatMap (·.names) ++ entity.members.flatMap (·.names)))

/-- The types in the block of a class. -/
def types (entity : ClassEntity) : List String :=
  entity.fields.map (·.typeName) ++ entity.members.flatMap (·.types)

end ClassEntity

namespace ClassDiagram

/-- The names in a diagram. -/
def shownNames (model : CodeModel) : List String :=
  model.enums.values.flatMap (·.names) ++ (model.classes.values.flatMap (·.names) ++
    (edges model).flatMap fun edge => [edge.source, edge.target])

/-- The types in a diagram. -/
def shownTypes (model : CodeModel) : List String :=
  model.classes.values.flatMap (·.types)

end ClassDiagram

/-! ### Names and types that are declared -/

namespace Java

/-- The names that a field tells. -/
def FieldSyntax.names (field : FieldSyntax) : List String :=
  field.name :: field.annotations

namespace MethodSyntax

/-- The names that a method tells. -/
def names (method : MethodSyntax) : List String :=
  method.name :: (method.annotations ++ method.params.map (·.name))

/-- The types of a method as written. -/
def typeTexts (method : MethodSyntax) : List String :=
  method.returnType.toList ++ method.params.map (·.typeText)

theorem names_member (method : MethodSyntax) (kind : Option MethodKind) :
    (method.member kind).names = method.names := by
  simp [member, Member.names, names]

theorem types_member (method : MethodSyntax) (kind : Option MethodKind) :
    (method.member kind).types = method.typeTexts.map TypeName.normalize := by
  unfold member Member.types typeTexts
  cases method.returnType <;> simp

end MethodSyntax

namespace ClassSyntax

/-- The names that a class tells. -/
def names (decl : ClassSyntax) : List String :=
  decl.name :: (decl.annotations ++ (decl.fields.flatMap (·.names) ++
    (decl.methods ++ decl.constructors).flatMap (·.names)))

/-- The types of the fields and members of a class as written. -/
def typeTexts (decl : ClassSyntax) : List String :=
  decl.fields.map (·.typeText) ++ (decl.methods ++ decl.constructors).flatMap (·.typeTexts)

/-- A shown member is a method or constructor of the class. -/
theorem exists_method {decl : ClassSyntax} {member : Member}
    (shown : member ∈ decl.entity.members) :
    ∃ method ∈ decl.methods ++ decl.constructors, ∃ kind, method.member kind = member := by
  rw [ClassEntity.members, List.mem_append, ← decl.members_perm.mem_iff] at shown
  rcases shown with listed | listed
  · obtain ⟨method, listed, same⟩ := List.mem_map.mp listed
    exact ⟨method, List.mem_append_right _ listed, none, same⟩
  · obtain ⟨method, listed, same⟩ := List.mem_map.mp listed
    exact ⟨method, List.mem_append_left _ listed, _, same⟩

theorem names_entity_subset (decl : ClassSyntax) : decl.entity.names ⊆ decl.names := by
  intro name shown
  simp only [ClassEntity.names, names, List.mem_cons, List.mem_append] at shown ⊢
  rcases shown with rfl | listed | listed | listed
  · exact Or.inl rfl
  · exact Or.inr (Or.inl listed)
  · -- Fields are shown one by one, methods in groups.
    right; right; left
    simpa [entity, List.mem_flatMap, FieldEntity.names, FieldSyntax.names] using listed
  · right; right; right
    obtain ⟨member, among, listed⟩ := List.mem_flatMap.mp listed
    obtain ⟨method, declared, kind, rfl⟩ := exists_method among
    rw [method.names_member] at listed
    exact List.mem_flatMap.mpr ⟨method, declared, listed⟩

theorem types_entity_subset (decl : ClassSyntax) :
    decl.entity.types ⊆ decl.typeTexts.map TypeName.normalize := by
  intro type shown
  rw [typeTexts, List.map_append, List.mem_append]
  rcases List.mem_append.mp shown with listed | listed
  · left
    simpa [entity] using listed
  · right
    obtain ⟨member, among, listed⟩ := List.mem_flatMap.mp listed
    obtain ⟨method, declared, kind, rfl⟩ := exists_method among
    rw [method.types_member] at listed
    obtain ⟨text, written, normal⟩ := List.mem_map.mp listed
    exact List.mem_map.mpr ⟨text, List.mem_flatMap.mpr ⟨method, declared, written⟩, normal⟩

end ClassSyntax

namespace Declaration

/-- The names that a declaration tells. The methods of an enum are not shown. -/
def names : Declaration → List String
  | ofClass decl => decl.names
  | ofEnum decl => decl.name :: decl.constants

/-- The types that a declaration shows, as written. -/
def typeTexts : Declaration → List String
  | ofClass decl => decl.typeTexts
  | ofEnum _ => []

theorem name_mem_names (decl : Declaration) : decl.name ∈ decl.names := by
  cases decl <;> exact List.mem_cons_self

end Declaration

end Java

theorem HoldsLast.exists_item_of_mem_values {α β : Type} {name : β → String} {value : β → α}
    {items : List β} {table : Table α} (holds : HoldsLast name value items table) {held : α}
    (listed : held ∈ table.values) : ∃ item ∈ items, value item = held := by
  obtain ⟨⟨key, _⟩, entry, rfl⟩ := List.mem_map.mp listed
  obtain ⟨item, member, _, same⟩ :=
    holds.exists_item (Table.get?_of_mem_entries holds.nodup_keys entry)
  exact ⟨item, member, same⟩

theorem mem_classesOf {decls : List Java.Declaration} {decl : Java.ClassSyntax} :
    decl ∈ classesOf decls ↔ .ofClass decl ∈ decls := by
  rw [classesOf, List.mem_filterMap]
  constructor
  · rintro ⟨other, listed, same⟩
    cases other with
    | ofClass other => cases same; exact listed
    | ofEnum other => cases same
  · exact fun listed => ⟨_, listed, rfl⟩

theorem mem_enumsOf {decls : List Java.Declaration} {decl : Java.EnumSyntax} :
    decl ∈ enumsOf decls ↔ .ofEnum decl ∈ decls := by
  rw [enumsOf, List.mem_filterMap]
  constructor
  · rintro ⟨other, listed, same⟩
    cases other with
    | ofClass other => cases same
    | ofEnum other => cases same; exact listed
  · exact fun listed => ⟨_, listed, rfl⟩

namespace ClassDiagram

/-- Both ends of an edge are declared names. -/
theorem ends_declared {decls : List Java.Declaration} {edge : Edge} (drawn : Drawn decls edge) :
    edge.source ∈ decls.map (·.name) ∧ edge.target ∈ decls.map (·.name) := by
  have of_class {decl : Java.ClassSyntax} (listed : decl ∈ classesOf decls) :
      decl.name ∈ decls.map (·.name) :=
    List.mem_map.mpr ⟨.ofClass decl, mem_classesOf.mp listed, rfl⟩
  have of_clause {clause : Java.ClassSyntax → List String}
      (drawn : DrawsClause clause decls edge.source edge.target) :
      edge.source ∈ decls.map (·.name) ∧ edge.target ∈ decls.map (·.name) := by
    obtain ⟨⟨decl, listed, same, _⟩, target⟩ := drawn
    exact ⟨same ▸ of_class listed, mem_names_iff.mpr (Or.inl target)⟩
  unfold Drawn at drawn
  split at drawn
  · obtain ⟨⟨decl, listed, same, _⟩, target⟩ := drawn
    exact ⟨same ▸ of_class listed, target⟩
  · exact of_clause drawn
  · exact of_clause drawn

end ClassDiagram

namespace ClosedForm

open ClassDiagram

variable {decls : List Java.Declaration} {model : CodeModel}

/-- Every shown name is told by a declaration. -/
theorem exists_of_mem_shownNames (closed : ClosedForm decls model) {name : String}
    (shown : name ∈ shownNames model) : ∃ decl ∈ decls, name ∈ decl.names := by
  have of_name {name : String} (declared : name ∈ decls.map (·.name)) :
      ∃ decl ∈ decls, name ∈ decl.names := by
    obtain ⟨decl, listed, rfl⟩ := List.mem_map.mp declared
    exact ⟨decl, listed, decl.name_mem_names⟩
  rw [shownNames, List.mem_append, List.mem_append] at shown
  rcases shown with shown | shown | shown
  · obtain ⟨entity, held, shown⟩ := List.mem_flatMap.mp shown
    obtain ⟨decl, listed, rfl⟩ := closed.enums.exists_item_of_mem_values held
    exact ⟨.ofEnum decl, mem_enumsOf.mp listed, shown⟩
  · obtain ⟨entity, held, shown⟩ := List.mem_flatMap.mp shown
    obtain ⟨decl, listed, rfl⟩ := closed.classes.exists_item_of_mem_values held
    exact ⟨.ofClass decl, mem_classesOf.mp listed, decl.names_entity_subset shown⟩
  · obtain ⟨edge, drawn, shown⟩ := List.mem_flatMap.mp shown
    obtain ⟨source, target⟩ := ends_declared ((closed.mem_edges_iff edge).mp drawn)
    rcases List.mem_pair.mp shown with rfl | rfl
    · exact of_name source
    · exact of_name target

/-- Every shown type is the normal form of a written one. -/
theorem exists_of_mem_shownTypes (closed : ClosedForm decls model) {type : String}
    (shown : type ∈ shownTypes model) :
    ∃ decl ∈ decls, ∃ text ∈ decl.typeTexts, TypeName.normalize text = type := by
  obtain ⟨entity, held, shown⟩ := List.mem_flatMap.mp shown
  obtain ⟨decl, listed, rfl⟩ := closed.classes.exists_item_of_mem_values held
  obtain ⟨text, written, normal⟩ := List.mem_map.mp (decl.types_entity_subset shown)
  exact ⟨.ofClass decl, mem_classesOf.mp listed, text, written, normal⟩

end ClosedForm

end JavaDiagram
