import Mathlib.Data.List.Basic
import JavaDiagram.Java.Extraction

/-!
# What is read off a subtree

A source text is read through the texts of nodes alone. Whatever is read off a declaration is read
through the texts of the nodes in its subtree and of the comments in front of it, so two sources
that agree on these give the same.
-/

namespace JavaDiagram.Java.Node

/-! ### Subtrees -/

mutual

/-- What lies in a part of a node lies in the node. -/
theorem mem_preorder_trans {part inner : Node} (deep : part ∈ inner.preorder) :
    (outer : Node) → inner ∈ outer.preorder → part ∈ outer.preorder
  | mk kind label extent children, within => by
    rw [preorder, List.mem_cons] at within
    rcases within with rfl | within
    · exact deep
    · rw [preorder]
      exact List.mem_cons_of_mem _ (mem_preorderAll_trans deep children within)

theorem mem_preorderAll_trans {part inner : Node} (deep : part ∈ inner.preorder) :
    (nodes : List Node) → inner ∈ preorderAll nodes → part ∈ preorderAll nodes
  | [], within => by cases within
  | node :: rest, within => by
    rw [preorderAll, List.mem_append] at within ⊢
    exact within.imp (mem_preorder_trans deep node) (mem_preorderAll_trans deep rest)

end

theorem mem_preorder_self (node : Node) : node ∈ node.preorder := by
  cases node
  rw [preorder]
  exact List.mem_cons_self ..

theorem mem_preorderAll {part node : Node} {nodes : List Node} (member : node ∈ nodes)
    (within : part ∈ node.preorder) : part ∈ preorderAll nodes := by
  induction nodes with
  | nil => cases member
  | cons head rest ih =>
    rw [preorderAll, List.mem_append]
    rcases List.mem_cons.mp member with rfl | member
    · exact Or.inl within
    · exact Or.inr (ih member)

theorem mem_preorder_of_child {part child node : Node} (member : child ∈ node.children)
    (within : part ∈ child.preorder) : part ∈ node.preorder := by
  cases node
  rw [preorder]
  exact List.mem_cons_of_mem _ (mem_preorderAll member within)

theorem mem_preorder_iff {inner node : Node} :
    inner ∈ node.preorder ↔ inner = node ∨ inner ∈ preorderAll node.children := by
  obtain ⟨kind, label, extent, children⟩ := node
  rw [preorder, List.mem_cons]
  rfl

theorem exists_mem_preorderAll {inner : Node} {nodes : List Node}
    (within : inner ∈ preorderAll nodes) : ∃ node ∈ nodes, inner ∈ node.preorder := by
  induction nodes with
  | nil => cases within
  | cons node rest ih =>
    rw [preorderAll, List.mem_append] at within
    rcases within with here | later
    · exact ⟨node, List.mem_cons_self .., here⟩
    · obtain ⟨other, member, deep⟩ := ih later
      exact ⟨other, List.mem_cons_of_mem _ member, deep⟩

theorem part_mem_preorder {node part : Node} {label : NodeLabel}
    (found : node.part? label = some part) : part ∈ node.preorder :=
  mem_preorder_of_child (List.mem_of_find?_eq_some found) part.mem_preorder_self

theorem mem_preorder_of_bodyChild {node member : Node} (listed : member ∈ node.bodyChildren) :
    member ∈ node.preorder := by
  unfold bodyChildren at listed
  split at listed
  next body found =>
    have below := mem_preorder_of_child listed member.mem_preorder_self
    exact mem_preorder_trans below node (part_mem_preorder found)
  next => cases listed

/-! ### Two sources -/

/-- Whether two sources give the nodes of a subtree the same texts. -/
def SameText (source other : SourceText) (node : Node) : Prop :=
  ∀ part ∈ node.preorder, part.text source = part.text other

namespace SameText

variable {source other : SourceText} {node : Node}

theorem self (same : SameText source other node) : node.text source = node.text other :=
  same node node.mem_preorder_self

theorem within (same : SameText source other node) {inner : Node}
    (member : inner ∈ node.preorder) : SameText source other inner :=
  fun part deep => same part (mem_preorder_trans deep node member)

theorem child (same : SameText source other node) {child : Node}
    (member : child ∈ node.children) : SameText source other child :=
  same.within (mem_preorder_of_child member child.mem_preorder_self)

theorem part (same : SameText source other node) {label : NodeLabel} {part : Node}
    (found : node.part? label = some part) : SameText source other part :=
  same.within (part_mem_preorder found)

theorem childOf (same : SameText source other node) {kind : NodeKind} {child : Node}
    (member : child ∈ node.childrenOf kind) : SameText source other child :=
  same.child (List.mem_filter.mp member).1

theorem namedChild (same : SameText source other node) {child : Node}
    (member : child ∈ node.namedChildren) : SameText source other child :=
  same.child (List.mem_filter.mp member).1

/-! ### Names, modifiers and types -/

theorem partText? (same : SameText source other node) (label : NodeLabel) :
    node.partText? source label = node.partText? other label := by
  unfold Node.partText?
  cases found : node.part? label with
  | none => rfl
  | some part => exact congrArg some (same.part found).self

theorem partText (same : SameText source other node) (label : NodeLabel) :
    node.partText source label = node.partText other label := by
  rw [Node.partText, Node.partText, same.partText? label]

theorem modifiers (same : SameText source other node) :
    node.modifiers source = node.modifiers other := by
  unfold Node.modifiers
  cases found : node.child? .modifiers with
  | none => rfl
  | some list =>
    have inner := same.child (List.mem_of_find?_eq_some found)
    dsimp only
    rw [List.map_congr_left fun _ member => (inner.childOf member).self]

theorem annotations (same : SameText source other node) :
    node.annotations source = node.annotations other := by
  unfold Node.annotations
  cases found : node.child? .modifiers with
  | none => rfl
  | some list =>
    have inner := same.child (List.mem_of_find?_eq_some found)
    exact List.filterMap_congr fun _ member => (inner.childOf member).partText? .name

theorem supertypeNames (same : SameText source other node) :
    (node.namedChildren.map fun type => supertypeName (type.text source)) =
      node.namedChildren.map fun type => supertypeName (type.text other) :=
  List.map_congr_left fun _ member => congrArg supertypeName (same.namedChild member).self

theorem listedTypes (same : SameText source other node) :
    node.listedTypes source = node.listedTypes other :=
  List.flatMap_congr fun _ member => (same.childOf member).supertypeNames

theorem superTypes (same : SameText source other node) :
    node.superTypes source = node.superTypes other := by
  unfold Node.superTypes
  rw [List.flatMap_congr fun _ member => (same.childOf member).listedTypes]
  cases found : node.part? .superclass with
  | none => rfl
  | some clause =>
    dsimp only
    rw [(same.part found).supertypeNames]

theorem interfaces (same : SameText source other node) :
    node.interfaces source = node.interfaces other := by
  unfold Node.interfaces
  cases found : node.part? .interfaces with
  | none => rfl
  | some clause => exact (same.part found).listedTypes

/-! ### Members -/

theorem fields (same : SameText source other node) : node.fields source = node.fields other := by
  unfold Node.fields
  rw [same.modifiers, same.annotations, same.partText .type]
  apply List.filterMap_congr
  intro declarator member
  rw [(same.child (List.mem_filter.mp member).1).partText? .name]

theorem spreadParameter (same : SameText source other node) :
    node.spreadParameter source = node.spreadParameter other := by
  apply List.foldl_ext
  intro param part member
  have inner := same.namedChild member
  rw [takeSpreadPart, takeSpreadPart, inner.partText .name, inner.self]

theorem parameter? (same : SameText source other node) :
    node.parameter? source = node.parameter? other := by
  unfold Node.parameter?
  rw [same.partText .type, same.partText .name, same.spreadParameter]

theorem site? (same : SameText source other node) : node.site? source = node.site? other := by
  unfold Node.site?
  rw [same.partText? .name, same.partText? .object, same.partText? .type]

theorem bodySyntax (same : SameText source other node) :
    node.bodySyntax source = node.bodySyntax other := by
  unfold Node.bodySyntax
  rw [same.self, List.filterMap_congr fun _ member => (same.within member).site?]

theorem methodSyntax (same : SameText source other node) :
    node.methodSyntax source = node.methodSyntax other := by
  have body : (node.part? .body).map (Node.bodySyntax source) =
      (node.part? .body).map (Node.bodySyntax other) := by
    cases found : node.part? .body with
    | none => rfl
    | some body => exact congrArg some (same.part found).bodySyntax
  unfold Node.methodSyntax
  rw [same.partText .name, same.modifiers, same.annotations, same.partText? .type, body]
  cases found : node.part? .parameters with
  | none => rfl
  | some list =>
    dsimp only
    rw [List.filterMap_congr fun _ member => ((same.part found).namedChild member).parameter?]

theorem bodyChild (same : SameText source other node) {member : Node}
    (listed : member ∈ node.bodyChildren) : SameText source other member :=
  same.within (mem_preorder_of_bodyChild listed)

end SameText

/-! ### Declarations -/

theorem javadoc_congr {source other : SourceText} {before : List Node}
    (same : ∀ sibling ∈ before, sibling.text source = sibling.text other) :
    javadoc source before = javadoc other before := by
  induction before with
  | nil => rfl
  | cons sibling rest ih =>
    rw [javadoc, javadoc, same sibling (List.mem_cons_self ..),
      ih fun _ member => same _ (List.mem_cons_of_mem _ member)]

/-- A declaration is read off its subtree and its earlier siblings. -/
theorem declarationOf_congr {source other : SourceText} {before : List Node} {node : Node}
    (same : SameText source other node)
    (siblings : ∀ sibling ∈ before, sibling.text source = sibling.text other) (origin : String)
    (kind : DeclarationKind) :
    node.declarationOf source origin before kind = node.declarationOf other origin before kind := by
  -- Members are children of the body, so they lie in the subtree.
  have listed {kind : NodeKind} {member : Node}
      (chosen : member ∈ node.bodyChildren.filter (·.kind == kind)) :
      SameText source other member :=
    same.bodyChild (List.mem_filter.mp chosen).1
  have enums (name : String) : node.enumSyntax source name = node.enumSyntax other name := by
    unfold enumSyntax
    dsimp only
    rw [List.filterMap_congr fun _ member => (listed member).partText? .name,
      List.flatMap_congr fun _ member =>
        List.map_congr_left fun _ inner => ((listed member).childOf inner).methodSyntax]
  have classes (name : String) :
      node.classSyntax source before name = node.classSyntax other before name := by
    unfold classSyntax
    dsimp only
    rw [same.modifiers, same.annotations, javadoc_congr siblings, same.superTypes, same.interfaces,
      List.flatMap_congr fun _ member => (listed member).fields,
      List.map_congr_left fun _ member => (listed member).methodSyntax,
      List.map_congr_left fun _ member => (listed member).methodSyntax]
  unfold declarationOf
  rw [same.partText .name]
  simp only [enums, classes]

end JavaDiagram.Java.Node
