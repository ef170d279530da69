import Mathlib.Data.List.Forall2
import JavaDiagram.Proofs.Collisions

/-!
# Members and method records

A class block shows the members of a class in groups; the walk follows the method records of its
name. Both come from one declaration as long as the last declaration of the name is a class. Once
an enum takes the name, the block still shows the class and the records are those of the enum.
-/

namespace JavaDiagram

/-! ### Members of a class -/

/-- Whether a record tells the walk what a member shows in the block of a class. -/
structure Describes (className : String) (member : Member) (record : MethodRecord) : Prop where
  owner : record.owner = className
  name : record.name = member.name
  visibility : record.visibility = member.visibility
  paramTypes : record.paramTypes = member.params.map (·.typeName)
  returnType : record.returnType = member.returnType.getD className
  isConstructor : record.isConstructor = true ↔ member.kind = none

/-- Whether records and an entity agree: the records are those of the members, in order, and then
those of the constructors, and each member is in the one group of its kind. -/
structure InStep (members : List Member) (entity : ClassEntity) (records : List MethodRecord) :
    Prop where
  described : List.Forall₂ (Describes entity.name) (members ++ entity.constructors) records
  grouped : members.Perm (entity.accessors ++ (entity.userMethods ++ entity.frameworkMethods))
  ordered : entity.accessors.Sublist members ∧ entity.userMethods.Sublist members ∧
    entity.frameworkMethods.Sublist members
  accessors : ∀ member ∈ entity.accessors, member.kind = some .accessor
  userMethods : ∀ member ∈ entity.userMethods, member.kind = some .user
  frameworkMethods : ∀ member ∈ entity.frameworkMethods,
    member.kind = some .override ∨ ∃ overridden, member.kind = some (.framework overridden)

/-- The methods of a class as its block shows them, in the order of their declaration. -/
def Java.ClassSyntax.members (decl : Java.ClassSyntax) : List Member :=
  decl.methods.map fun method => method.member (some method.kind)

theorem Java.MethodSyntax.describes (method : Java.MethodSyntax) (className : String)
    (kind : Option MethodKind) :
    Describes className (method.member kind) (method.record className kind.isNone) := by
  constructor
  · rfl
  · rfl
  · rfl
  · simp [Java.MethodSyntax.record, Java.MethodSyntax.member]
  · rfl
  · exact Option.isNone_iff_eq_none

theorem Java.ClassSyntax.describes_records (decl : Java.ClassSyntax) :
    List.Forall₂ (Describes decl.name) (decl.members ++ decl.entity.constructors) decl.records := by
  apply List.rel_append
  · rw [members, List.forall₂_map_left_iff, List.forall₂_map_right_iff, List.forall₂_same]
    intro method _
    exact method.describes decl.name (some method.kind)
  · show List.Forall₂ _ (decl.constructors.map _) _
    rw [List.forall₂_map_left_iff, List.forall₂_map_right_iff, List.forall₂_same]
    intro method _
    exact method.describes decl.name none

/-! ### Groups -/

/-- The group of a kind: accessors, user methods, and the methods of every object with overrides. -/
def MethodKind.isAccessor : MethodKind → Bool
  | accessor => true
  | _ => false

def MethodKind.isUser : MethodKind → Bool
  | user => true
  | _ => false

def MethodKind.isInherited : MethodKind → Bool
  | framework _ | override => true
  | _ => false

namespace Java.ClassSyntax

theorem accessors_entity (decl : Java.ClassSyntax) :
    decl.entity.accessors = decl.membersWhere (·.isAccessor) :=
  rfl

theorem userMethods_entity (decl : Java.ClassSyntax) :
    decl.entity.userMethods = decl.membersWhere (·.isUser) :=
  rfl

theorem frameworkMethods_entity (decl : Java.ClassSyntax) :
    decl.entity.frameworkMethods = decl.membersWhere (·.isInherited) :=
  rfl

theorem membersWhere_sublist (decl : Java.ClassSyntax) (test : MethodKind → Bool) :
    (decl.membersWhere test).Sublist decl.members :=
  List.filter_sublist.map _

theorem kind_of_mem_membersWhere {decl : Java.ClassSyntax} {test : MethodKind → Bool}
    {member : Member} (listed : member ∈ decl.membersWhere test) :
    ∃ kind, member.kind = some kind ∧ test kind = true := by
  obtain ⟨method, passes, rfl⟩ := List.mem_map.mp listed
  exact ⟨method.kind, rfl, (List.mem_filter.mp passes).2⟩

/-- Every member is in exactly one group. -/
theorem members_perm (decl : Java.ClassSyntax) :
    decl.members.Perm (decl.entity.accessors ++
      (decl.entity.userMethods ++ decl.entity.frameworkMethods)) := by
  -- The accessors are set apart first, then the user methods among the others.
  have outer := List.filter_append_perm (fun method : MethodSyntax => method.kind.isAccessor)
    decl.methods
  have inner := List.filter_append_perm (fun method : MethodSyntax => method.kind.isUser)
    (decl.methods.filter fun method => !method.kind.isAccessor)
  have users : (fun method : MethodSyntax => method.kind.isUser && !method.kind.isAccessor) =
      fun method => method.kind.isUser := by
    funext method
    cases method.kind <;> rfl
  have inherited : (fun method : MethodSyntax => !method.kind.isUser && !method.kind.isAccessor) =
      fun method => method.kind.isInherited := by
    funext method
    cases method.kind <;> rfl
  rw [List.filter_filter, List.filter_filter, users, inherited] at inner
  have groups := ((inner.append_left _).trans outer).symm.map fun method =>
    method.member (some method.kind)
  rw [List.map_append, List.map_append] at groups
  exact groups

/-- A class entity and the method records of one declaration agree. -/
theorem inStep (decl : Java.ClassSyntax) : InStep decl.members decl.entity decl.records := by
  refine ⟨decl.describes_records, decl.members_perm, ?_, ?_, ?_, ?_⟩
  · rw [accessors_entity, userMethods_entity, frameworkMethods_entity]
    exact ⟨decl.membersWhere_sublist _, decl.membersWhere_sublist _, decl.membersWhere_sublist _⟩
  -- Each group is filtered by a test that only the kinds of the group pass.
  · intro member listed
    rw [accessors_entity] at listed
    obtain ⟨kind, same, passes⟩ := kind_of_mem_membersWhere listed
    cases kind with
    | accessor => exact same
    | framework | override | user => cases passes
  · intro member listed
    rw [userMethods_entity] at listed
    obtain ⟨kind, same, passes⟩ := kind_of_mem_membersWhere listed
    cases kind with
    | user => exact same
    | accessor | framework | override => cases passes
  · intro member listed
    rw [frameworkMethods_entity] at listed
    obtain ⟨kind, same, passes⟩ := kind_of_mem_membersWhere listed
    cases kind with
    | override => exact Or.inl same
    | framework overridden => exact Or.inr ⟨overridden, same⟩
    | accessor | user => cases passes

end Java.ClassSyntax

/-! ### The last declaration of a name -/

theorem getLast?_filterMap {α β : Type} {f : α → Option β} {values : List α} {last : α} {image : β}
    (final : values.getLast? = some last) (kept : f last = some image) :
    (values.filterMap f).getLast? = some image := by
  obtain ⟨front, rfl⟩ := List.getLast?_eq_some_iff.mp final
  rw [List.filterMap_append, List.filterMap_cons_some kept]
  simp

theorem exists_last_of_declared {decls : List Java.Declaration} {decl : Java.Declaration}
    (declared : decl ∈ decls) :
    ∃ last, (decls.filter (·.name = decl.name)).getLast? = some last := by
  have some_decl : decls.filter (·.name = decl.name) ≠ [] :=
    List.ne_nil_of_mem (List.mem_filter.mpr ⟨declared, by simp⟩)
  have some_last := mt List.getLast?_eq_none_iff.mp some_decl
  exact Option.ne_none_iff_exists'.mp some_last

namespace ClosedForm

variable {decls : List Java.Declaration} {model : CodeModel}

theorem get?_classes_of_last (closed : ClosedForm decls model) {name : String}
    {decl : Java.ClassSyntax}
    (last : (decls.filter (·.name = name)).getLast? = some (.ofClass decl)) :
    model.classes.get? name = some decl.entity := by
  -- A class that is last of its name is last among the classes of that name.
  have classes : (classesOf decls).filter (·.name = name) =
      (decls.filter (·.name = name)).filterMap (·.class?) := by
    rw [classesOf, List.filter_filterMap, List.filterMap_filter]
    apply List.filterMap_congr
    intro other _
    cases other with
    | ofClass other =>
      by_cases same : other.name = name <;>
        simp [Java.Declaration.class?, Java.Declaration.name, Option.filter, same]
    | ofEnum other => simp [Java.Declaration.class?]
  rw [closed.classes.last, classes, getLast?_filterMap (f := (·.class?)) last rfl]
  rfl

theorem methodsOf_of_last (closed : ClosedForm decls model) {name : String}
    {decl : Java.Declaration} (last : (decls.filter (·.name = name)).getLast? = some decl) :
    model.methodsOf name = decl.records := by
  rw [CodeModel.methodsOf, closed.methods.last, last]
  rfl

end ClosedForm

/-- What the tables of an ingested model say of one class. A name is in both entity tables exactly
if it was declared as both sorts. The records of a name are those of its last declaration; if that
is a class, the entity of the name agrees with them. -/
theorem members_ingestAll (units : List Java.SyntaxUnit) :
    let decls := committedDeclarations units
    let model := (({} : CodeModel).ingestAll units).1
    (∀ name, model.classes.contains name = true ∧ model.enums.contains name = true ↔
      (∃ decl ∈ decls, decl.name = name ∧ decl.isEnum = false) ∧
        ∃ decl ∈ decls, decl.name = name ∧ decl.isEnum = true) ∧
    ∀ name entity, model.classes.get? name = some entity →
      ∃ last, (decls.filter (·.name = name)).getLast? = some last ∧
        model.methodsOf name = last.records ∧
        ∀ decl, last = .ofClass decl → InStep decl.members entity (model.methodsOf name) := by
  intro decls model
  have closed : ClosedForm decls model := (closedForm_iff_ingestAll units model).mpr rfl
  constructor
  · intro name
    rw [closed.contains_class_iff, closed.contains_enum_iff, mem_classNames_iff, mem_enumNames_iff]
  · intro name entity found
    -- A class of that name was committed, so there is a last declaration of the name.
    have known : name ∈ ClassDiagram.classNames decls := by
      rw [← closed.contains_class_iff, Table.contains, found]
      rfl
    obtain ⟨declared, member, rfl, _⟩ := mem_classNames_iff.mp known
    obtain ⟨last, final⟩ := exists_last_of_declared member
    refine ⟨last, final, closed.methodsOf_of_last final, ?_⟩
    rintro decl rfl
    rw [closed.get?_classes_of_last final] at found
    rw [← Option.some.inj found, closed.methodsOf_of_last final]
    exact decl.inStep

/-- A class and, in a later unit, an enum of the same name. -/
def redeclared : List Java.SyntaxUnit :=
  [⟨"a", [.ok (.ofClass tone)]⟩, ⟨"b", [.ok (.ofEnum toneEnum)]⟩]

/-- A name can be in both entity tables, and then a class need not agree with the method records of
its name. -/
theorem not_inStep_of_redeclared :
    (¬ ∀ (units : List Java.SyntaxUnit) (name : String),
      let model := (({} : CodeModel).ingestAll units).1
      ¬ (model.classes.contains name = true ∧ model.enums.contains name = true)) ∧
    ¬ ∀ (units : List Java.SyntaxUnit) (name : String) (entity : ClassEntity),
      let model := (({} : CodeModel).ingestAll units).1
      model.classes.get? name = some entity →
        ∃ members, InStep members entity (model.methodsOf name) := by
  constructor
  · intro claim
    exact claim redeclared "Tone" (by decide)
  · intro claim
    obtain ⟨members, agree⟩ := claim redeclared "Tone" tone.entity (by decide)
    -- The block shows one member, but the enum has no methods.
    have no_records : (({} : CodeModel).ingestAll redeclared).1.methodsOf "Tone" = [] := by decide
    have shown := agree.grouped.length_eq
    have described := agree.described.length_eq
    rw [no_records, List.length_append] at described
    have one : (tone.entity.accessors ++
        (tone.entity.userMethods ++ tone.entity.frameworkMethods)).length = 1 := by decide
    rw [one] at shown
    rw [shown, List.length_nil] at described
    omega

end JavaDiagram
