import JavaDiagram.Proofs.Members

/-!
# Two views of a member

The block of a class shows a method in the group of its kind, and the walk finds it among the
records of the class. A method has one place in each of the two views: its rank among the methods
of its group, and its index among all. What stands at both places is made of that method alone.
-/

namespace JavaDiagram

/-- A group of methods in the block of a class. -/
inductive MemberGroup where
  | accessors
  | user
  /-- The methods of every object, and overrides. -/
  | inherited
  deriving DecidableEq, Repr

def MethodKind.group : MethodKind → MemberGroup
  | accessor => .accessors
  | user => .user
  | framework _ | override => .inherited

/-- The members that the block of a class shows in a group. -/
def ClassEntity.membersIn (entity : ClassEntity) : MemberGroup → List Member
  | .accessors => entity.accessors
  | .user => entity.userMethods
  | .inherited => entity.frameworkMethods

/-- Whether a member and a record show the same method. They agree with each other, and both keep
what the method says. -/
structure Pictures (className : String) (method : Java.MethodSyntax) (member : Member)
    (record : MethodRecord) : Prop extends Describes className member record where
  nameKept : member.name = method.name
  visibilityKept : member.visibility = method.modifiers.visibility
  paramsKept : record.paramTypes = method.params.map fun param => TypeName.normalize param.typeText
  resultKept : member.returnType = method.returnType.map TypeName.normalize
  calls : record.calls = ((method.body.map (·.sites)).getD []).map CallRecord.ofSite

/-! ### Places in a filtered list -/

/-- An item that passes a test stands behind as many as pass it in front of the item. -/
theorem getElem?_filter_take {α : Type} {test : α → Bool} {items : List α} {index : Nat} {item : α}
    (found : items[index]? = some item) (passes : test item = true) :
    (items.filter test)[((items.take index).filter test).length]? = some item := by
  obtain ⟨inside, rfl⟩ := List.getElem?_eq_some_iff.mp found
  -- The list is cut in front of the item, and each part is filtered on its own.
  have parts : items.filter test = (items.take index).filter test ++
      items[index] :: (items.drop (index + 1)).filter test := by
    conv_lhs => rw [← List.take_append_drop index items, List.drop_eq_getElem_cons inside]
    rw [List.filter_append, List.filter_cons_of_pos passes]
  rw [parts, List.getElem?_append_right (Nat.le_refl _)]
  simp

namespace Java

/-- How many methods in front of a method are shown in its group. -/
def ClassSyntax.rankOf (decl : ClassSyntax) (index : Nat) (method : MethodSyntax) : Nat :=
  ((decl.methods.take index).filter fun earlier => earlier.kind.group = method.kind.group).length

theorem MethodSyntax.pictures (method : MethodSyntax) (className : String)
    (kind : Option MethodKind) :
    Pictures className method (method.member kind) (method.record className kind.isNone) where
  toDescribes := method.describes className kind
  nameKept := rfl
  visibilityKept := rfl
  paramsKept := rfl
  resultKept := rfl
  calls := by
    unfold record sites
    cases method.body <;> rfl

namespace ClassSyntax

variable (decl : ClassSyntax)

theorem membersIn_entity (group : MemberGroup) :
    decl.entity.membersIn group =
      (decl.methods.filter fun method => method.kind.group = group).map fun method =>
        method.member (some method.kind) := by
  have tested (test : MethodKind → Bool) (same : ∀ kind, test kind = decide (kind.group = group)) :
      decl.membersWhere test =
        (decl.methods.filter fun method => method.kind.group = group).map fun method =>
          method.member (some method.kind) := by
    rw [membersWhere, funext same]
  cases group with
  | accessors => exact tested (·.isAccessor) fun kind => by cases kind <;> rfl
  | user => exact tested (·.isUser) fun kind => by cases kind <;> rfl
  | inherited => exact tested (·.isInherited) fun kind => by cases kind <;> rfl

theorem getElem?_membersIn {index : Nat} {method : MethodSyntax}
    (declared : decl.methods[index]? = some method) :
    (decl.entity.membersIn method.kind.group)[decl.rankOf index method]? =
      some (method.member (some method.kind)) := by
  rw [membersIn_entity, List.getElem?_map, rankOf,
    getElem?_filter_take declared (decide_eq_true rfl)]
  rfl

theorem getElem?_records {index : Nat} {method : MethodSyntax}
    (declared : decl.methods[index]? = some method) :
    decl.records[index]? = some (method.record decl.name false) := by
  obtain ⟨inside, _⟩ := List.getElem?_eq_some_iff.mp declared
  rw [records, List.getElem?_append_left (by simpa using inside), List.getElem?_map, declared]
  rfl

theorem getElem?_records_constructor {index : Nat} {method : MethodSyntax}
    (declared : decl.constructors[index]? = some method) :
    decl.records[decl.methods.length + index]? = some (method.record decl.name true) := by
  rw [records, List.getElem?_append_right (by simp), List.length_map, Nat.add_sub_cancel_left,
    List.getElem?_map, declared]
  rfl

end ClassSyntax

end Java

/-- The two views of the members of a class. Each group of its block is a filtered list of its
methods, and no method is lost. The records are those of the methods and then of the constructors,
each at the index of what it records; the block shows a method at its rank in its group, and what
stands at the two places shows that method. Once the class is committed, both views are found under
its name. -/
theorem members_viewed (decl : Java.ClassSyntax) :
    (∀ group, decl.entity.membersIn group =
      (decl.methods.filter fun method => method.kind.group = group).map fun method =>
        method.member (some method.kind)) ∧
    decl.members.Perm (decl.entity.accessors ++
      (decl.entity.userMethods ++ decl.entity.frameworkMethods)) ∧
    decl.records.length = decl.methods.length + decl.constructors.length ∧
    (∀ index method, decl.methods[index]? = some method → ∃ member record,
      (decl.entity.membersIn method.kind.group)[decl.rankOf index method]? = some member ∧
        decl.records[index]? = some record ∧ member.kind = some method.kind ∧
        Pictures decl.name method member record) ∧
    (∀ index method, decl.constructors[index]? = some method → ∃ member record,
      decl.entity.constructors[index]? = some member ∧
        decl.records[decl.methods.length + index]? = some record ∧ member.kind = none ∧
        Pictures decl.name method member record) ∧
    ∀ model : CodeModel,
      (model.commit decl.build).classes.get? decl.name = some decl.entity ∧
        (model.commit decl.build).methodsOf decl.name = decl.records := by
  refine ⟨decl.membersIn_entity, decl.members_perm, ?_, ?_, ?_, ?_⟩
  · simp [Java.ClassSyntax.records]
  · intro index method declared
    exact ⟨_, _, decl.getElem?_membersIn declared, decl.getElem?_records declared, rfl,
      method.pictures decl.name (some method.kind)⟩
  · intro index method declared
    have shown : decl.entity.constructors[index]? = some (method.member none) := by
      show (decl.constructors.map _)[index]? = _
      rw [List.getElem?_map, declared]
      rfl
    exact ⟨_, _, shown, decl.getElem?_records_constructor declared, rfl,
      method.pictures decl.name none⟩
  · intro model
    constructor
    · show (model.commitAll [.ofClass decl]).classes.get? decl.name = _
      rw [CodeModel.commitAll_eq]
      exact (Table.get?_put model.classes decl.name decl.name decl.entity).trans (if_pos rfl)
    · exact (model.methodsOf_commit (.ofClass decl) decl.name).trans (if_pos rfl)

end JavaDiagram
