import JavaDiagram.Proofs.Collisions
import JavaDiagram.Proofs.NestedCode

/-!
# Lines in source order

Declarations and sites are collected in pre-order. If no siblings of a tree overlap, its nodes are
on lines that do not decrease in this order. A method record keeps the lines of the sites that its
calls are made of.
-/

theorem List.Forall₂.map_eq_map {α β γ : Type} {told : α → β → Prop} {values : List α}
    {results : List β} (pairs : List.Forall₂ told values results) {f : α → γ} {g : β → γ}
    (same : ∀ value result, told value result → g result = f value) :
    results.map g = values.map f := by
  induction pairs with
  | nil => rfl
  | cons told _ ih => rw [List.map_cons, List.map_cons, same _ _ told, ih]

namespace JavaDiagram

theorem CallRecord.line_ofSite (site : Java.Site) : (CallRecord.ofSite site).line = site.line := by
  cases site <;> rfl

theorem Java.MethodSyntax.map_line_calls (method : MethodSyntax) (owner : String)
    (isConstructor : Bool) :
    (method.record owner isConstructor).calls.map (·.line) = method.sites.map (·.line) := by
  show (method.sites.map CallRecord.ofSite).map (·.line) = _
  rw [List.map_map]
  exact List.map_congr_left fun site _ => CallRecord.line_ofSite site

namespace Java

/-- The line under which a declaration is listed or reported. -/
def resultLine : Except DeclarationError Declaration → Nat
  | .ok decl => decl.line
  | .error error => error.line

theorem ResultFor.line_eq {source : SourceText} {origin : String} {node : Node}
    {result : Except DeclarationError Declaration} (told : ResultFor source origin node result) :
    resultLine result = node.line := by
  cases told with
  | unnamed | malformed => rfl
  | usable _ _ _ line => exact line

namespace Node

variable {source : SourceText} {tree : Node}

/-! ### Lines in pre-order -/

theorem map_line_declarations (source : SourceText) (origin : String) (tree : Node) :
    (tree.declarations source origin).map resultLine = tree.declarationNodes.map (·.line) :=
  (forall₂_declarations source origin tree).map_eq_map fun _ _ told => told.line_eq

/-- The sites of a method are on the lines of chosen nodes of its body. -/
theorem exists_lines_sites (source : SourceText) (tree : Node) :
    (tree.methodSyntax source).sites.map (·.line) = [] ∨ ∃ body ∈ tree.preorder,
      (tree.methodSyntax source).sites.map (·.line) =
        (body.preorder.filter isSite).map (·.line) := by
  cases found : tree.part? .body with
  | none =>
    left
    rw [methodSyntax, MethodSyntax.sites, found]
    rfl
  | some body =>
    right
    exact ⟨body, part_mem_preorder found,
      (forall₂_sites source found).map_eq_map fun _ _ told => told.line_eq⟩

/-- Nothing in a tree is on a line in front of the tree. -/
theorem IsPlaced.line_le_of_mem (placed : tree.IsPlaced source) {node : Node}
    (member : node ∈ tree.preorder) : tree.line ≤ node.line :=
  placed.line_le tree.mem_preorder_self member (placed.nested.extent_le tree member).1

theorem IsPlaced.one_le_declarations (placed : tree.IsPlaced source) (origin : String) :
    ∀ line ∈ (tree.declarations source origin).map resultLine, 1 ≤ line := by
  rw [map_line_declarations, List.forall_mem_map]
  intro node listed
  exact placed.one_le_line (List.mem_filter.mp listed).1

theorem IsPlaced.line_le_sites (placed : tree.IsPlaced source) :
    ∀ line ∈ (tree.methodSyntax source).sites.map (·.line), tree.line ≤ line := by
  rcases tree.exists_lines_sites source with nothing | ⟨body, inside, lines⟩
  · simp [nothing]
  · rw [lines, List.forall_mem_map]
    intro node listed
    exact placed.line_le_of_mem (mem_preorder_trans (List.mem_filter.mp listed).1 tree inside)

theorem IsLaidOut.pairwise_filter (laid_out : tree.IsLaidOut source) (chosen : Node → Bool) :
    ((tree.preorder.filter chosen).map (·.line)).Pairwise (· ≤ ·) :=
  List.pairwise_map.mpr (laid_out.pairwise_lines.filter chosen)

theorem IsLaidOut.pairwise_declarations (laid_out : tree.IsLaidOut source) (origin : String) :
    ((tree.declarations source origin).map resultLine).Pairwise (· ≤ ·) := by
  rw [map_line_declarations]
  exact laid_out.pairwise_filter isDeclaration

theorem IsLaidOut.pairwise_sites (laid_out : tree.IsLaidOut source) :
    ((tree.methodSyntax source).sites.map (·.line)).Pairwise (· ≤ ·) := by
  rcases tree.exists_lines_sites source with nothing | ⟨body, inside, lines⟩
  · rw [nothing]
    exact List.Pairwise.nil
  · rw [lines]
    exact (laid_out.within inside).pairwise_filter isSite

/-! ### Records of methods -/

/-- Whether a node is a method or a constructor. -/
def isMethod (node : Node) : Bool :=
  node.kind == .methodDeclaration || node.kind == .constructorDeclaration

/-- The record of a method or constructor in a class or enum of some name. -/
def recordIn (source : SourceText) (owner : String) (node : Node) : MethodRecord :=
  (node.methodSyntax source).record owner (node.kind == .constructorDeclaration)

theorem exists_method_of_class {before : List Node} {node : Node} {name : String}
    {record : MethodRecord} (member : record ∈ (node.classSyntax source before name).records) :
    ∃ method ∈ node.preorder, method.isMethod = true ∧ record = method.recordIn source name := by
  -- Methods and constructors are filtered out of the same children, each by its kind.
  unfold ClassSyntax.records classSyntax at member
  dsimp only at member
  rw [List.map_map, List.map_map] at member
  rcases List.mem_append.mp member with member | member
  all_goals
    obtain ⟨method, chosen, rfl⟩ := List.mem_map.mp member
    obtain ⟨listed, kind⟩ := List.mem_filter.mp chosen
    refine ⟨method, mem_preorder_of_bodyChild listed, ?_, ?_⟩
    · rw [isMethod, eq_of_beq kind]
      rfl
    · rw [recordIn, eq_of_beq kind]
      rfl

theorem exists_method_of_enum {node : Node} {name : String} {record : MethodRecord}
    (member : record ∈ (Declaration.ofEnum (node.enumSyntax source name)).records) :
    ∃ method ∈ node.preorder, method.isMethod = true ∧ record = method.recordIn source name := by
  -- The methods of an enum are one level deeper than those of a class.
  obtain ⟨written, listed, rfl⟩ := List.mem_map.mp member
  obtain ⟨members, chosen, listed⟩ := List.mem_flatMap.mp listed
  obtain ⟨method, inner, rfl⟩ := List.mem_map.mp listed
  obtain ⟨child, kind⟩ := List.mem_filter.mp inner
  have around := mem_preorder_of_bodyChild (List.mem_filter.mp chosen).1
  have below := mem_preorder_of_child child method.mem_preorder_self
  refine ⟨method, mem_preorder_trans below node around, ?_, ?_⟩
  · rw [isMethod, eq_of_beq kind]
    rfl
  · rw [recordIn, eq_of_beq kind]
    rfl

theorem exists_method_of_mem_records {origin : String} {decl : Declaration} {record : MethodRecord}
    (listed : .ok decl ∈ tree.declarations source origin) (member : record ∈ decl.records) :
    ∃ method ∈ tree.preorder, method.isMethod = true ∧
      record = method.recordIn source decl.name := by
  obtain ⟨⟨before, node⟩, visited, result⟩ := List.mem_filterMap.mp listed
  have inside : node ∈ tree.preorder := mem_preorder_of_visited visited
  obtain ⟨kind, _, result⟩ := Option.map_eq_some_iff.mp result
  unfold declarationOf at result
  dsimp only at result
  -- Without a name, or with an error inside, the result is no declaration.
  split at result
  · cases result
  split at result
  · cases result
  split at result
  next =>
    cases result
    obtain ⟨method, below, told⟩ := exists_method_of_enum member
    exact ⟨method, mem_preorder_trans below tree inside, told⟩
  next =>
    cases result
    obtain ⟨method, below, told⟩ := exists_method_of_class member
    exact ⟨method, mem_preorder_trans below tree inside, told⟩

end Node

end Java

namespace CodeModel

/-- A record in a model was there before, or a committed declaration of its owner's name has it. -/
theorem mem_methodsOf_commitAll {model : CodeModel} {decls : List Java.Declaration}
    {owner : String} {record : MethodRecord}
    (listed : record ∈ (model.commitAll decls).methodsOf owner) :
    record ∈ model.methodsOf owner ∨ ∃ decl ∈ decls, decl.name = owner ∧ record ∈ decl.records := by
  induction decls generalizing model with
  | nil => exact Or.inl listed
  | cons decl rest ih =>
    -- The last declaration of the name decides, so the later ones come first.
    rcases ih listed with earlier | ⟨later, member, named, told⟩
    · rw [methodsOf_commit] at earlier
      split at earlier
      next named => exact Or.inr ⟨decl, List.mem_cons_self, named.symm, earlier⟩
      next => exact Or.inl earlier
    · exact Or.inr ⟨later, List.mem_cons_of_mem _ member, named, told⟩

end CodeModel

namespace Java

theorem eq_ok_of_committed? {result : Except DeclarationError Declaration} {decl : Declaration}
    (usable : committed? result = some decl) : result = .ok decl := by
  unfold committed? at usable
  split at usable
  · split at usable <;> cases usable
    rfl
  · cases usable

/-- A syntax tree whose nodes lie in its source. -/
structure PlacedTree where
  origin : String
  source : SourceText
  root : Node
  placed : root.IsPlaced source

namespace PlacedTree

def unit (tree : PlacedTree) : SyntaxUnit :=
  ⟨tree.origin, tree.root.declarations tree.source tree.origin⟩

def ofText (origin text : String) : PlacedTree :=
  ⟨origin, text.toList.toArray, Grammar.parse text.toList,
    (Grammar.isLaidOut_parse _).toIsPlaced⟩

end PlacedTree

/-- Declarations are reported on the lines of their nodes, sites are on no line in front of their
method, and the call records of a model that takes in trees are on the lines of the sites. If no
siblings of a tree overlap, its declarations and the sites of each of its methods are in the order
of their lines. All texts are parsed to such trees. -/
theorem lines_in_source_order :
    (∀ tree : PlacedTree,
      tree.unit.declarations.map resultLine = tree.root.declarationNodes.map (·.line) ∧
        (∀ line ∈ tree.unit.declarations.map resultLine, 1 ≤ line) ∧
        (tree.root.HasSiblingsApart →
          (tree.unit.declarations.map resultLine).Pairwise (· ≤ ·))) ∧
    (∀ tree : PlacedTree, ∀ method ∈ tree.root.preorder,
      (∀ line ∈ (method.methodSyntax tree.source).sites.map (·.line), method.line ≤ line) ∧
        (tree.root.HasSiblingsApart →
          ((method.methodSyntax tree.source).sites.map (·.line)).Pairwise (· ≤ ·))) ∧
    (∀ (model : CodeModel) (trees : List PlacedTree) (owner : String),
      ∀ record ∈ (model.ingestAll (trees.map (·.unit))).1.methodsOf owner,
        record ∈ model.methodsOf owner ∨
          ∃ tree ∈ trees, ∃ method ∈ tree.root.preorder, method.isMethod = true ∧
            record = method.recordIn tree.source owner ∧
              record.calls.map (·.line) =
                (method.methodSyntax tree.source).sites.map (·.line)) ∧
    ∀ origin text : String,
      (PlacedTree.ofText origin text).unit = SyntaxUnit.ofSource origin text ∧
        (PlacedTree.ofText origin text).root.HasSiblingsApart := by
  refine ⟨?_, ?_, ?_, fun _ _ => ⟨rfl, (Grammar.isLaidOut_parse _).apart⟩⟩
  · intro tree
    refine ⟨Node.map_line_declarations tree.source tree.origin tree.root,
      tree.placed.one_le_declarations tree.origin, fun apart => ?_⟩
    exact Node.IsLaidOut.pairwise_declarations ⟨tree.placed, apart⟩ tree.origin
  · intro tree method member
    refine ⟨(tree.placed.within member).line_le_sites, fun apart => ?_⟩
    exact (Node.IsLaidOut.within ⟨tree.placed, apart⟩ member).pairwise_sites
  · intro model trees owner record listed
    rw [CodeModel.ingestAll_model] at listed
    refine (CodeModel.mem_methodsOf_commitAll listed).imp_right ?_
    -- From the record back to the declaration, its tree and its method node.
    rintro ⟨decl, committed, rfl, told⟩
    obtain ⟨unit, taken, committed⟩ := List.mem_flatMap.mp committed
    obtain ⟨tree, member, rfl⟩ := List.mem_map.mp taken
    obtain ⟨result, reported, usable⟩ := List.mem_filterMap.mp committed
    rw [eq_ok_of_committed? usable] at reported
    obtain ⟨method, inside, is_method, rfl⟩ := Node.exists_method_of_mem_records reported told
    exact ⟨tree, member, method, inside, is_method, rfl, MethodSyntax.map_line_calls ..⟩

/-! ### Siblings apart and siblings that overlap -/

/-- A class with a method that makes two calls. -/
def deskSource : SourceText :=
  "class Desk \x7b void run() \x7b\n a();\n b(); \x7d \x7d".toList.toArray

/-- A tree of the class, with these nodes in the body of its method. -/
def deskTree (statements : List Node) : Node :=
  .mk .program none ⟨0, 41, 1⟩ [
    .mk .classDeclaration none ⟨0, 41, 1⟩ [
      .mk .identifier (some .name) ⟨6, 10, 1⟩ [],
      .mk .classBody (some .body) ⟨11, 41, 1⟩ [
        .mk .methodDeclaration none ⟨13, 39, 1⟩ [
          .mk .type (some .type) ⟨13, 17, 1⟩ [],
          .mk .identifier (some .name) ⟨18, 21, 1⟩ [],
          .mk .block (some .body) ⟨24, 39, 1⟩ statements]]]]

/-- The call of `a`. -/
def firstCall : Node :=
  .mk .methodInvocation none ⟨27, 30, 2⟩ [.mk .identifier (some .name) ⟨27, 28, 2⟩ []]

/-- The call of `b`. -/
def secondCall : Node :=
  .mk .methodInvocation none ⟨33, 36, 3⟩ [.mk .identifier (some .name) ⟨33, 34, 3⟩ []]

/-- The calls follow one another. -/
def orderly : PlacedTree :=
  ⟨"Desk.java", deskSource, deskTree [firstCall, secondCall], by decide +kernel⟩

theorem orderly_lines :
    orderly.root.HasSiblingsApart ∧
      (orderly.unit.declarations.map resultLine).Pairwise (· ≤ ·) ∧
      (∃ method ∈ orderly.root.preorder,
        (method.methodSyntax orderly.source).sites.map (·.line) = [2, 3] ∧
          ((method.methodSyntax orderly.source).sites.map (·.line)).Pairwise (· ≤ ·)) ∧
      ∃ record ∈ (({} : CodeModel).ingestAll [orderly.unit]).1.methodsOf "Desk",
        record.calls.map (·.line) = [2, 3] ∧ ∃ method ∈ orderly.root.preorder,
          record.calls.map (·.line) =
            (method.methodSyntax orderly.source).sites.map (·.line) := by
  have apart : orderly.root.HasSiblingsApart := by decide +kernel
  obtain ⟨declared, called, recorded, _⟩ := lines_in_source_order
  refine ⟨apart, (declared orderly).2.2 apart, ?_, ?_⟩
  · obtain ⟨method, member, lines⟩ : ∃ method ∈ orderly.root.preorder,
        (method.methodSyntax orderly.source).sites.map (·.line) = [2, 3] := by decide +kernel
    exact ⟨method, member, lines, (called orderly method member).2 apart⟩
  · obtain ⟨record, listed, lines⟩ :
        ∃ record ∈ (({} : CodeModel).ingestAll [orderly.unit]).1.methodsOf "Desk",
          record.calls.map (·.line) = [2, 3] := by decide +kernel
    rcases recorded {} [orderly] "Desk" record listed with old | ⟨tree, member, method, inside, told⟩
    · cases old
    · obtain rfl := List.mem_singleton.mp member
      exact ⟨record, listed, lines, method, inside, told.2.2⟩

/-- The first node of the body starts where the call of `a` does, ends behind it and holds the call
of `b`. -/
def overlapping : PlacedTree :=
  ⟨"Desk.java", deskSource,
    deskTree [.mk .expression none ⟨27, 37, 2⟩ [secondCall], firstCall], by decide +kernel⟩

/-- Siblings that start in order and lie inside their parent are not enough: the lines of the sites
go back, and so do those of the call records. -/
theorem overlapping_lines :
    ¬ overlapping.root.HasSiblingsApart ∧
      (∃ method ∈ overlapping.root.preorder, method.isMethod = true ∧
        (method.methodSyntax overlapping.source).sites.map (·.line) = [3, 2] ∧
          ¬ ((method.methodSyntax overlapping.source).sites.map (·.line)).Pairwise (· ≤ ·)) ∧
      ((({} : CodeModel).ingestAll [overlapping.unit]).1.methodsOf "Desk").map
        (fun record => record.calls.map (·.line)) = [[3, 2]] := by
  decide +kernel

end Java

end JavaDiagram
