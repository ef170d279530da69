import Mathlib.Data.List.Basic
import JavaDiagram.Model.Building
import JavaDiagram.Proofs.DeclarationSubtrees
import JavaDiagram.Proofs.ParsedPlaces

/-!
# Nested code

A method inside the body of another lies in that body with all its nodes and with its whole text.
So its calls and constructions stand among those of the outer method without a gap, and the outer
method shows each of its flow patterns.
-/

namespace JavaDiagram

namespace Text

theorem contains_of_infix {inner outer : String} (within : inner.toList <:+: outer.toList)
    {words : String} (found : contains inner words = true) : contains outer words = true :=
  hasInfix_iff.mpr ((hasInfix_iff.mp found).trans within)

end Text

namespace FlowPattern

/-- A longer text shows all patterns of a part of it. The modifier counts as its word does. -/
theorem detect_sublist {inner outer : String} {flag flag' : Bool}
    (within : inner.toList <:+: outer.toList)
    (kept : flag = true → flag' = true ∨ Text.contains outer "synchronized" = true) :
    (detect inner flag).Sublist (detect outer flag') := by
  apply List.monotone_filter_right
  intro pattern shown
  have keep (words : String) (found : Text.contains inner words = true) :
      Text.contains outer words = true := Text.contains_of_infix within found
  -- The tests only ask for words, so none of them can fail on a longer text.
  cases pattern <;> simp only [occurs, Bool.and_eq_true, Bool.or_eq_true] at shown ⊢
  case threadCreation | arrayCreation => exact shown.imp (keep _) (keep _)
  case forLoop | conditional => exact shown.imp (keep _) (keep _)
  case threadJoin | systemOutput | threadSleep => exact keep _ shown
  case synchronized => exact shown.elim kept fun word => Or.inr (keep _ word)

end FlowPattern

namespace Java

/-- What a node adds to the sites of the methods around it. -/
inductive SiteFor (source : SourceText) (node : Node) : Site → Prop where
  | call {name : Node} : node.kind = .methodInvocation → node.part? .name = some name →
      SiteFor source node (.call (node.partText? source .object) (name.text source) node.line)
  | creation {type : Node} : node.kind = .objectCreation → node.part? .type = some type →
      SiteFor source node (.creation (type.text source) node.line)

theorem SiteFor.line_eq {source : SourceText} {node : Node} {site : Site}
    (told : SiteFor source node site) : site.line = node.line := by
  cases told <;> rfl

namespace Node

/-- Whether a node is a call with a name or a construction with a type. -/
def isSite (node : Node) : Bool :=
  match node.kind with
  | .methodInvocation => (node.part? .name).isSome
  | .objectCreation => (node.part? .type).isSome
  | _ => false

/-! ### Blocks of the pre-order -/

mutual

theorem infix_preorder {inner : Node} :
    (outer : Node) → inner ∈ outer.preorder → inner.preorder <:+: outer.preorder
  | mk kind label extent children, member => by
    rw [preorder, List.mem_cons] at member
    rcases member with rfl | member
    · exact List.infix_rfl
    · rw [preorder]
      exact List.infix_cons (infix_preorderAll children member)

theorem infix_preorderAll {inner : Node} :
    (nodes : List Node) → inner ∈ preorderAll nodes → inner.preorder <:+: preorderAll nodes
  | [], member => by cases member
  | node :: rest, member => by
    rw [preorderAll, List.mem_append] at member
    rw [preorderAll]
    rcases member with here | later
    · exact (infix_preorder node here).trans (List.prefix_append _ _).isInfix
    · exact (infix_preorderAll rest later).trans (List.suffix_append _ _).isInfix

end

/-! ### Sites -/

theorem isSome_site? (source : SourceText) (node : Node) :
    (node.site? source).isSome = node.isSite := by
  unfold site? isSite partText?
  cases node.kind <;> simp

theorem siteFor_of_site? {source : SourceText} {node : Node} {site : Site}
    (found : node.site? source = some site) : SiteFor source node site := by
  unfold site? at found
  split at found
  next call =>
    obtain ⟨name, named, rfl⟩ := Option.map_eq_some_iff.mp found
    obtain ⟨part, is_name, rfl⟩ := Option.map_eq_some_iff.mp named
    exact .call call is_name
  next creation =>
    obtain ⟨type, typed, rfl⟩ := Option.map_eq_some_iff.mp found
    obtain ⟨part, is_type, rfl⟩ := Option.map_eq_some_iff.mp typed
    exact .creation creation is_type
  next => cases found

variable {source : SourceText} {node body : Node}

theorem sites_methodSyntax (found : node.part? .body = some body) :
    (node.methodSyntax source).sites = body.preorder.filterMap (site? source) := by
  rw [methodSyntax, MethodSyntax.sites, found]
  rfl

theorem bodyText_methodSyntax (found : node.part? .body = some body) :
    (node.methodSyntax source).bodyText = body.text source := by
  rw [methodSyntax, MethodSyntax.bodyText, found]
  rfl

theorem forall₂_sites (source : SourceText) (found : node.part? .body = some body) :
    List.Forall₂ (SiteFor source) (body.preorder.filter isSite)
      (node.methodSyntax source).sites := by
  rw [sites_methodSyntax found, ← funext (isSome_site? source)]
  exact List.forall₂_filterMap (fun _ _ => siteFor_of_site?) body.preorder

/-! ### Modifiers -/

/-- The word for a modifier is a part of the text around the method. -/
theorem contains_of_isSynchronized {inner outer : Node} (nested : outer.IsNested)
    (member : inner ∈ outer.preorder) (flag : (inner.modifiers source).isSynchronized = true) :
    Text.contains (outer.text source) "synchronized" = true := by
  unfold modifiers at flag
  split at flag
  next list found =>
    obtain ⟨token, listed, text⟩ := List.mem_map.mp (List.contains_iff_mem.mp flag)
    have below : token ∈ inner.preorder :=
      mem_preorder_of_child (List.mem_of_find?_eq_some found)
        (mem_preorder_of_child (List.mem_filter.mp listed).1 token.mem_preorder_self)
    have within := nested.text_infix (mem_preorder_trans below outer member) source
    rw [text] at within
    exact Text.hasInfix_iff.mpr within
  next => cases flag

end Node

/-- Code inside a method counts for the method. A body inside the body of another method adds its
sites to those of that method in one block, and where the tree is nested, as every parsed tree is,
the outer method shows its flow patterns in their order. The sites of a method are those of the
nodes of its body, one for each. -/
theorem nested_code_counts (source : SourceText) :
    (∀ outer inner body innerBody : Node, outer.part? .body = some body →
      inner ∈ body.preorder → inner.part? .body = some innerBody →
      (inner.methodSyntax source).sites <:+: (outer.methodSyntax source).sites ∧
        (outer.IsNested →
          (∀ flag, (FlowPattern.detect (innerBody.text source) flag).Sublist
            (FlowPattern.detect (body.text source) flag)) ∧
          ∀ owner owner' isConstructor isConstructor',
            ((inner.methodSyntax source).record owner isConstructor).flowPatterns.Sublist
              ((outer.methodSyntax source).record owner' isConstructor').flowPatterns)) ∧
    (∀ outer body : Node, outer.part? .body = some body →
      List.Forall₂ (SiteFor source) (body.preorder.filter Node.isSite)
        (outer.methodSyntax source).sites) ∧
    ∀ cs : List Char, ∀ outer ∈ (Grammar.parse cs).preorder, outer.IsNested := by
  refine ⟨?_, fun outer body found => Node.forall₂_sites source found, ?_⟩
  · intro outer inner body innerBody outer_body member inner_body
    -- One body lies in the other, so what is collected from it is a part of what is collected.
    have inside : innerBody ∈ body.preorder :=
      Node.mem_preorder_trans (Node.part_mem_preorder inner_body) body member
    refine ⟨?_, fun nested => ?_⟩
    · rw [Node.sites_methodSyntax outer_body, Node.sites_methodSyntax inner_body]
      exact (Node.infix_preorder body inside).filterMap _
    · have body_nested := nested.within (Node.part_mem_preorder outer_body)
      have within := body_nested.text_infix inside source
      refine ⟨fun flag => FlowPattern.detect_sublist within Or.inl, ?_⟩
      intro owner owner' isConstructor isConstructor'
      show (FlowPattern.detect (inner.methodSyntax source).bodyText _).Sublist
        (FlowPattern.detect (outer.methodSyntax source).bodyText _)
      rw [Node.bodyText_methodSyntax outer_body, Node.bodyText_methodSyntax inner_body]
      exact FlowPattern.detect_sublist within fun flag =>
        Or.inr (Node.contains_of_isSynchronized body_nested member flag)
  · intro cs outer member
    exact ((Grammar.isLaidOut_parse cs).within member).nested

end Java

end JavaDiagram
