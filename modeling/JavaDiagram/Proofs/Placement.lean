import JavaDiagram.Proofs.SubtreeTexts

/-!
# Where nodes lie

A node lies inside its parent, and its line is that of its first character. So whatever lies below a
node lies inside it, and its text is a part of the text of the node. If no siblings overlap, the
nodes of a tree start one behind the other in pre-order; it is not enough that siblings start in
order, for a part of one may start behind the next.
-/

namespace JavaDiagram.Java

/-- The line of a position: line feeds in front of it end the earlier lines. -/
def SourceText.lineAt (source : SourceText) (position : Nat) : Nat :=
  1 + (source.toList.take position).count '\n'

theorem SourceText.lineAt_mono (source : SourceText) {first second : Nat} (le : first ≤ second) :
    source.lineAt first ≤ source.lineAt second :=
  Nat.add_le_add_left ((List.take_sublist_take_left le).count_le '\n') 1

namespace Node

/-- Whether every child in a tree lies inside its parent. -/
def IsNested (tree : Node) : Prop :=
  ∀ node ∈ tree.preorder, ∀ child ∈ node.children,
    node.extent.start ≤ child.extent.start ∧ child.extent.stop ≤ node.extent.stop

instance (tree : Node) : Decidable tree.IsNested :=
  inferInstanceAs (Decidable (∀ node ∈ tree.preorder, ∀ child ∈ node.children, _))

/-- Whether the nodes of a tree lie in a source as its parts do: each inside its parent, on the line
of its first character, and siblings in the order of their starts. -/
structure IsPlaced (source : SourceText) (tree : Node) : Prop where
  nested : tree.IsNested
  proper : ∀ node ∈ tree.preorder, node.extent.start ≤ node.extent.stop
  line : ∀ node ∈ tree.preorder, node.line = source.lineAt node.extent.start
  ordered : ∀ node ∈ tree.preorder,
    node.children.Pairwise fun first second => first.extent.start ≤ second.extent.start

instance (source : SourceText) (tree : Node) : Decidable (tree.IsPlaced source) :=
  decidable_of_iff
    (tree.IsNested ∧ (∀ node ∈ tree.preorder, node.extent.start ≤ node.extent.stop) ∧
      (∀ node ∈ tree.preorder, node.line = source.lineAt node.extent.start) ∧
      ∀ node ∈ tree.preorder,
        node.children.Pairwise fun first second => first.extent.start ≤ second.extent.start)
    ⟨fun ⟨nested, proper, line, ordered⟩ => ⟨nested, proper, line, ordered⟩,
      fun ⟨nested, proper, line, ordered⟩ => ⟨nested, proper, line, ordered⟩⟩

/-- Whether no siblings in a tree overlap: each ends where the next one starts, or in front. -/
def HasSiblingsApart (tree : Node) : Prop :=
  ∀ node ∈ tree.preorder,
    node.children.Pairwise fun first second => first.extent.stop ≤ second.extent.start

instance (tree : Node) : Decidable tree.HasSiblingsApart :=
  inferInstanceAs (Decidable (∀ node ∈ tree.preorder, List.Pairwise _ _))

/-- Whether the nodes of a tree lie in a source and no siblings overlap. -/
structure IsLaidOut (source : SourceText) (tree : Node) : Prop extends IsPlaced source tree where
  apart : tree.HasSiblingsApart

/-! ### Parts of a tree -/

theorem IsNested.within {tree inner : Node} (nested : tree.IsNested)
    (member : inner ∈ tree.preorder) : inner.IsNested :=
  fun node deep => nested node (mem_preorder_trans deep tree member)

theorem IsPlaced.within {source : SourceText} {tree inner : Node} (placed : tree.IsPlaced source)
    (member : inner ∈ tree.preorder) : inner.IsPlaced source where
  nested := placed.nested.within member
  proper node deep := placed.proper node (mem_preorder_trans deep tree member)
  line node deep := placed.line node (mem_preorder_trans deep tree member)
  ordered node deep := placed.ordered node (mem_preorder_trans deep tree member)

theorem IsLaidOut.within {source : SourceText} {tree inner : Node}
    (laid_out : tree.IsLaidOut source) (member : inner ∈ tree.preorder) :
    inner.IsLaidOut source where
  toIsPlaced := laid_out.toIsPlaced.within member
  apart node deep := laid_out.apart node (mem_preorder_trans deep tree member)

mutual

/-- What lies below a node lies inside it. -/
theorem IsNested.extent_le {part : Node} : (tree : Node) → tree.IsNested → part ∈ tree.preorder →
    tree.extent.start ≤ part.extent.start ∧ part.extent.stop ≤ tree.extent.stop
  | mk kind label extent children, nested, member => by
    rw [preorder, List.mem_cons] at member
    rcases member with rfl | member
    · exact ⟨Nat.le_refl _, Nat.le_refl _⟩
    · have inside := nested (mk kind label extent children) (mem_preorder_self _)
      have below (child : Node) (listed : child ∈ children) : child.IsNested :=
        nested.within (mem_preorder_of_child listed child.mem_preorder_self)
      exact extent_le_of_all extent children inside below member

theorem IsNested.extent_le_of_all {part : Node} (outer : Extent) : (nodes : List Node) →
    (∀ node ∈ nodes, outer.start ≤ node.extent.start ∧ node.extent.stop ≤ outer.stop) →
    (∀ node ∈ nodes, node.IsNested) → part ∈ preorderAll nodes →
    outer.start ≤ part.extent.start ∧ part.extent.stop ≤ outer.stop
  | [], _, _, member => by cases member
  | node :: rest, inside, nested, member => by
    rw [List.forall_mem_cons] at inside nested
    rw [preorderAll, List.mem_append] at member
    rcases member with here | later
    · have inner := extent_le node nested.1 here
      exact ⟨Nat.le_trans inside.1.1 inner.1, Nat.le_trans inner.2 inside.1.2⟩
    · exact extent_le_of_all outer rest inside.2 nested.2 later

end

/-- The text of a node is a part of the text of every node around it. -/
theorem IsNested.text_infix {tree part : Node} (nested : tree.IsNested)
    (member : part ∈ tree.preorder) (source : SourceText) :
    (part.text source).toList <:+: (tree.text source).toList := by
  obtain ⟨start, stop⟩ := nested.extent_le tree member
  -- The slice of the part is a slice of the slice of the tree.
  have inner : (part.text source).toList = ((tree.text source).toList.drop
      (part.extent.start - tree.extent.start)).take (part.extent.stop - part.extent.start) := by
    simp only [text, SourceText.slice, String.toList_ofList, Array.toList_extract,
      List.extract_eq_take_drop, List.drop_take, List.drop_drop, List.take_take]
    congr 1 <;> [omega; (congr 1; omega)]
  rw [inner]
  exact (List.take_prefix _ _).isInfix.trans (List.drop_suffix _ _).isInfix

/-! ### Pre-order -/

mutual

theorem IsLaidOut.pairwise_preorder {source : SourceText} : (tree : Node) →
    tree.IsLaidOut source →
    tree.preorder.Pairwise fun first second => first.extent.start ≤ second.extent.start
  | .mk kind label extent children, laid_out => by
    have below (child : Node) (listed : child ∈ children) : child.IsLaidOut source :=
      laid_out.within (mem_preorder_of_child listed child.mem_preorder_self)
    rw [preorder, List.pairwise_cons]
    refine ⟨fun part member => ?_, ?_⟩
    · have deep : part ∈ (Node.mk kind label extent children).preorder := by
        rw [preorder]
        exact List.mem_cons_of_mem _ member
      exact (laid_out.nested.extent_le _ deep).1
    · exact pairwise_preorderAll children below
        (laid_out.apart (Node.mk kind label extent children) (mem_preorder_self _))

theorem IsLaidOut.pairwise_preorderAll {source : SourceText} : (nodes : List Node) →
    (∀ node ∈ nodes, node.IsLaidOut source) →
    (nodes.Pairwise fun first second => first.extent.stop ≤ second.extent.start) →
    (preorderAll nodes).Pairwise fun first second => first.extent.start ≤ second.extent.start
  | [], _, _ => List.Pairwise.nil
  | node :: rest, laid_out, apart => by
    rw [List.forall_mem_cons] at laid_out
    rw [List.pairwise_cons] at apart
    rw [preorderAll, List.pairwise_append]
    refine ⟨pairwise_preorder node laid_out.1, pairwise_preorderAll rest laid_out.2 apart.2, ?_⟩
    intro first here second later
    -- A part of a node ends in front of the next sibling, and so do all that start before it.
    obtain ⟨sibling, listed, deep⟩ := exists_mem_preorderAll later
    have ended := (laid_out.1.nested.extent_le node here).2
    have started := ((laid_out.2 sibling listed).nested.extent_le sibling deep).1
    have behind := apart.1 sibling listed
    have proper := laid_out.1.proper first here
    omega

end

theorem IsPlaced.line_le {source : SourceText} {tree first second : Node}
    (placed : tree.IsPlaced source) (here : first ∈ tree.preorder) (there : second ∈ tree.preorder)
    (le : first.extent.start ≤ second.extent.start) : first.line ≤ second.line := by
  rw [placed.line first here, placed.line second there]
  exact source.lineAt_mono le

theorem IsPlaced.one_le_line {source : SourceText} {tree node : Node}
    (placed : tree.IsPlaced source) (member : node ∈ tree.preorder) : 1 ≤ node.line := by
  rw [placed.line node member]
  exact Nat.le_add_right 1 _

theorem IsLaidOut.pairwise_lines {source : SourceText} {tree : Node}
    (laid_out : tree.IsLaidOut source) :
    tree.preorder.Pairwise fun first second => first.line ≤ second.line :=
  (IsLaidOut.pairwise_preorder tree laid_out).imp_of_mem fun here there le =>
    laid_out.line_le here there le

end Node

end JavaDiagram.Java
