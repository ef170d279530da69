import Mathlib.Data.List.Forall2
import JavaDiagram.Proofs.SubtreeTexts

/-!
# Declarations stand on their own

Each declaration node of a syntax tree has a result of its own, which is told by the node, its
subtree and its earlier siblings. An error spoils the declarations around it and no others, and
nothing else in a tree can change the result of a declaration.
-/

/-- The results of a partial map stand one for each value that has one, in the order of these. -/
theorem List.forall₂_filterMap {α β : Type} {told : α → β → Prop} {map? : α → Option β}
    (sound : ∀ value result, map? value = some result → told value result) (values : List α) :
    List.Forall₂ told (values.filter fun value => (map? value).isSome) (values.filterMap map?) := by
  induction values with
  | nil => exact .nil
  | cons value rest ih =>
    cases found : map? value with
    | none =>
      rw [List.filter_cons_of_neg (by simp [found]), List.filterMap_cons_none found]
      exact ih
    | some result =>
      rw [List.filter_cons_of_pos (by simp [found]), List.filterMap_cons_some found]
      exact .cons (sound value result found) ih

namespace JavaDiagram.Java

namespace Node

/-- Whether a node declares a class, an interface or an enum. -/
def isDeclaration (node : Node) : Bool :=
  node.declarationKind?.isSome

/-- The declaration nodes of a tree, in pre-order. -/
def declarationNodes (tree : Node) : List Node :=
  tree.preorder.filter isDeclaration

/-- The name that a node gives itself. An empty name is none. -/
def givenName? (source : SourceText) (node : Node) : Option String :=
  (node.partText? source .name).filter (!·.isEmpty)

/-- Whether text that fits nowhere, or the place of absent text, lies in a node. -/
def Damaged (node : Node) : Prop :=
  ∃ part ∈ node.preorder, part.kind = .error

/-! ### Visits in pre-order -/

mutual

theorem map_visits (before : List Node) :
    (node : Node) → (node.visits before).map (·.2) = node.preorder
  | mk kind label extent children => by
    rw [visits, preorder, List.map_cons, map_visitsAll]

theorem map_visitsAll (before : List Node) :
    (nodes : List Node) → (visitsAll before nodes).map (·.2) = preorderAll nodes
  | [] => rfl
  | node :: rest => by
    rw [visitsAll, preorderAll, List.map_append, map_visits, map_visitsAll]

end

theorem mem_preorder_of_visited {before : List Node} {node : Node} {visit : List Node × Node}
    (visited : visit ∈ node.visits before) : visit.2 ∈ node.preorder := by
  rw [← map_visits before]
  exact List.mem_map_of_mem visited

theorem visits_eq_cons (before : List Node) (node : Node) :
    node.visits before = (before, node) :: visitsAll [] node.children := by
  cases node
  rw [visits, children]

theorem visitsAll_append (before front back : List Node) :
    visitsAll before (front ++ back) =
      visitsAll before front ++ visitsAll (front.reverse ++ before) back := by
  induction front generalizing before with
  | nil => rfl
  | cons node rest ih =>
    rw [List.cons_append, visitsAll, visitsAll, ih, List.append_assoc, List.reverse_cons,
      List.append_assoc, List.singleton_append]

end Node

/-! ### Results of declarations -/

/-- What can be reported of a declaration node. The three cases exclude each other. -/
inductive ResultFor (source : SourceText) (origin : String) (node : Node) :
    Except DeclarationError Declaration → Prop where
  | unnamed {kind : DeclarationKind} : node.declarationKind? = some kind →
      node.givenName? source = none →
      ResultFor source origin node (.error (.unnamed origin kind node.line))
  | malformed {kind : DeclarationKind} {name : String} : node.declarationKind? = some kind →
      node.givenName? source = some name → node.Damaged →
      ResultFor source origin node (.error (.malformed origin kind name node.line))
  | usable {decl : Declaration} : node.declarationKind? = some decl.kind →
      node.givenName? source = some decl.name → ¬ node.Damaged → decl.line = node.line →
      ResultFor source origin node (.ok decl)

namespace Node

theorem hasError_iff {node : Node} : node.hasError = true ↔ node.Damaged := by
  simp [hasError, Damaged]

theorem givenName?_eq (source : SourceText) (node : Node) :
    node.givenName? source =
      if (node.partText source .name).isEmpty then none else some (node.partText source .name) := by
  unfold partText givenName?
  cases node.partText? source .name with
  | none => rfl
  | some name => by_cases empty : name.isEmpty <;> simp [Option.filter, empty]

/-- A class or interface node reads as a declaration of its own kind. -/
theorem kind_classSyntax {source : SourceText} {before : List Node} {node : Node} {name : String}
    {kind : DeclarationKind} (declares : node.declarationKind? = some kind) (apart : kind ≠ .enum) :
    (Declaration.ofClass (node.classSyntax source before name)).kind = kind := by
  show (if node.kind == .interfaceDeclaration then DeclarationKind.interface else .cls) = kind
  unfold declarationKind? at declares
  split at declares
  next plain =>
    rw [plain, ← Option.some.inj declares]
    rfl
  next interface =>
    rw [interface, ← Option.some.inj declares]
    rfl
  next => exact absurd (Option.some.inj declares).symm apart
  next => cases declares

theorem resultFor_declarationOf (source : SourceText) (origin : String) (before : List Node)
    {node : Node} {kind : DeclarationKind} (declares : node.declarationKind? = some kind) :
    ResultFor source origin node (node.declarationOf source origin before kind) := by
  have given := givenName?_eq source node
  unfold declarationOf
  dsimp only
  split
  next empty => exact .unnamed declares (by rw [given, if_pos empty])
  next named =>
    rw [if_neg named] at given
    split
    next damaged => exact .malformed declares given (hasError_iff.mp damaged)
    next whole =>
      have sound : ¬ node.Damaged := mt hasError_iff.mpr whole
      cases kind with
      | enum => exact .usable declares given sound rfl
      | cls | interface =>
        -- Whether the node is an interface is read off the node again.
        refine .usable ?_ given sound rfl
        rw [kind_classSyntax declares (by decide), declares]

/-- The result of a visited node, if it is a declaration. -/
def resultAt? (source : SourceText) (origin : String) (visit : List Node × Node) :
    Option (Except DeclarationError Declaration) :=
  visit.2.declarationKind?.map (visit.2.declarationOf source origin visit.1)

/-- Each declaration among visited nodes has one result, in the order of the visits. -/
theorem forall₂_results (source : SourceText) (origin : String) (visits : List (List Node × Node)) :
    List.Forall₂ (ResultFor source origin) ((visits.map (·.2)).filter isDeclaration)
      (visits.filterMap (resultAt? source origin)) := by
  have declares (visit : List Node × Node) :
      (resultAt? source origin visit).isSome = visit.2.isDeclaration := by
    rw [resultAt?, Option.isSome_map, isDeclaration]
  have told : ∀ visit result, resultAt? source origin visit = some result →
      ResultFor source origin visit.2 result := by
    intro visit result found
    obtain ⟨kind, is_kind, rfl⟩ := Option.map_eq_some_iff.mp found
    exact resultFor_declarationOf source origin visit.1 is_kind
  rw [List.filter_map, List.forall₂_map_left_iff, Function.comp_def, ← funext declares]
  exact List.forall₂_filterMap told visits

theorem declarations_eq (source : SourceText) (origin : String) (tree : Node) :
    tree.declarations source origin = (tree.visits []).filterMap (resultAt? source origin) :=
  rfl

/-- Each declaration node of a tree has one result, in pre-order. -/
theorem forall₂_declarations (source : SourceText) (origin : String) (tree : Node) :
    List.Forall₂ (ResultFor source origin) tree.declarationNodes
      (tree.declarations source origin) := by
  rw [declarationNodes, ← map_visits []]
  exact forall₂_results source origin (tree.visits [])

/-- A declaration around a malformed one cannot be used. -/
theorem not_usable_around {source : SourceText} {origin : String} {outer inner : Node}
    {result result' : Except DeclarationError Declaration}
    (around : ResultFor source origin outer result) (inside : ResultFor source origin inner result')
    (within : inner ∈ outer.preorder) {origin' : String} {kind : DeclarationKind} {name : String}
    {line : Nat} (malformed : result' = .error (.malformed origin' kind name line)) :
    ∀ decl, result ≠ .ok decl := by
  cases inside with
  | unnamed => cases malformed
  | usable => cases malformed
  | malformed _ _ damaged =>
    -- What is broken in the inner declaration lies in the outer one, too.
    obtain ⟨part, deep, broken⟩ := damaged
    rintro decl rfl
    cases around with
    | usable _ _ sound => exact sound ⟨part, mem_preorder_trans deep outer within, broken⟩

/-! ### Surroundings -/

end Node

/-- One level of a tree around a node: its parent and its siblings, the earlier ones from the
nearest on. -/
structure Frame where
  kind : NodeKind
  label : Option NodeLabel := none
  extent : Extent
  before : List Node := []
  after : List Node := []

/-- The parent of a node. -/
def Frame.parent (frame : Frame) (node : Node) : Node :=
  .mk frame.kind frame.label frame.extent (frame.before.reverse ++ node :: frame.after)

namespace Node

/-- The tree around a node, from the level of its parent outwards. -/
def placed (node : Node) : List Frame → Node
  | [] => node
  | frame :: outer => (frame.parent node).placed outer

/-- The earlier siblings of a node placed in a tree. -/
def siblings : List Frame → List Node
  | [] => []
  | frame :: _ => frame.before

/-- The nodes of a tree in front of a node placed in it, in pre-order. -/
def nodesBefore (node : Node) : List Frame → List Node
  | [] => []
  | frame :: outer =>
    (frame.parent node).nodesBefore outer ++ frame.parent node :: preorderAll frame.before.reverse

/-- How many declarations of a tree come before a node placed in it. -/
def rank (node : Node) (frames : List Frame) : Nat :=
  ((node.nodesBefore frames).filter isDeclaration).length

/-- A node is visited between what is in front of it and what is behind it. -/
theorem exists_visits_placed (node : Node) (frames : List Frame) :
    ∃ front back, (node.placed frames).visits [] =
        front ++ node.visits (siblings frames) ++ back ∧
      front.map (·.2) = node.nodesBefore frames := by
  induction frames generalizing node with
  | nil => exact ⟨[], [], by rw [placed, siblings, List.nil_append, List.append_nil], rfl⟩
  | cons frame outer ih =>
    obtain ⟨front, back, visited, nodes⟩ := ih (frame.parent node)
    refine ⟨front ++ (siblings outer, frame.parent node) :: visitsAll [] frame.before.reverse,
      visitsAll (node :: frame.before) frame.after ++ back, ?_, ?_⟩
    · have children : (frame.parent node).children =
          frame.before.reverse ++ node :: frame.after := rfl
      rw [placed, visited, visits_eq_cons, children, visitsAll_append, List.reverse_reverse,
        List.append_nil, visitsAll, siblings]
      simp only [List.append_assoc, List.cons_append]
    · rw [List.map_append, List.map_cons, nodes, map_visitsAll, nodesBefore]

/-- A declaration and its result stand at the same place, that of the declaration among all. -/
theorem getElem?_rank {node : Node} {kind : DeclarationKind}
    (declares : node.declarationKind? = some kind) (source : SourceText) (origin : String)
    (frames : List Frame) :
    (node.placed frames).declarationNodes[node.rank frames]? = some node ∧
      ((node.placed frames).declarations source origin)[node.rank frames]? =
        some (node.declarationOf source origin (siblings frames) kind) := by
  obtain ⟨front, back, visited, nodes⟩ := exists_visits_placed node frames
  have listed : node.isDeclaration = true := by rw [isDeclaration, declares]; rfl
  constructor
  · rw [declarationNodes, ← map_visits [], visited, visits_eq_cons, rank, ← nodes]
    simp [listed]
  · -- In front of the declaration there are as many results as declarations.
    have results := (forall₂_results source origin front).length_eq
    rw [nodes] at results
    have result : resultAt? source origin (siblings frames, node) =
        some (node.declarationOf source origin (siblings frames) kind) := by
      rw [resultAt?, declares]
      rfl
    rw [declarations_eq, visited, visits_eq_cons, rank, results]
    simp [result]

/-- Whether a result is reported for a declaration that is placed in a tree. -/
def Reports (source : SourceText) (origin : String) (node : Node) (frames : List Frame)
    (result : Except DeclarationError Declaration) : Prop :=
  (node.placed frames).declarationNodes[node.rank frames]? = some node ∧
    ((node.placed frames).declarations source origin)[node.rank frames]? = some result

/-- A declaration is reported alike in all trees in which it has the same earlier siblings, with the
same texts. -/
theorem reports_alike {source other : SourceText} {node : Node} {kind : DeclarationKind}
    {frames frames' : List Frame} (declares : node.declarationKind? = some kind)
    (same_siblings : siblings frames = siblings frames') (same_text : SameText source other node)
    (same_texts : ∀ sibling ∈ siblings frames, sibling.text source = sibling.text other)
    (origin : String) :
    ∃ result, Reports source origin node frames result ∧
      Reports other origin node frames' result := by
  refine ⟨_, getElem?_rank declares source origin frames, ?_⟩
  rw [declarationOf_congr same_text same_texts, same_siblings]
  exact getElem?_rank declares other origin frames'

end Node

/-- Every declaration of a tree has one result, in pre-order, of the sort that its name and its
subtree tell. A declaration around a malformed one is never usable. What surrounds a declaration,
its earlier siblings apart, has no influence on its result. -/
theorem declarations_stand_alone (source : SourceText) (origin : String) :
    (∀ tree : Node, List.Forall₂ (ResultFor source origin) tree.declarationNodes
      (tree.declarations source origin)) ∧
    (∀ (tree outer inner : Node) (result : Except DeclarationError Declaration)
      (origin' : String) (kind : DeclarationKind) (name : String) (line : Nat),
      (outer, result) ∈ tree.declarationNodes.zip (tree.declarations source origin) →
      (inner, .error (.malformed origin' kind name line)) ∈
        tree.declarationNodes.zip (tree.declarations source origin) →
      inner ∈ outer.preorder → ∀ decl, result ≠ .ok decl) ∧
    ∀ (other : SourceText) (node : Node) (frames frames' : List Frame),
      node.isDeclaration = true → Node.siblings frames = Node.siblings frames' →
      node.SameText source other →
      (∀ sibling ∈ Node.siblings frames, sibling.text source = sibling.text other) →
      ∃ result, Node.Reports source origin node frames result ∧
        Node.Reports other origin node frames' result := by
  refine ⟨Node.forall₂_declarations source origin, ?_, ?_⟩
  · intro tree outer inner result origin' kind name line listed listed' within
    obtain ⟨_, told⟩ := List.forall₂_iff_zip.mp (Node.forall₂_declarations source origin tree)
    exact Node.not_usable_around (told listed) (told listed') within rfl
  · intro other node frames frames' declares same_siblings same_text same_texts
    obtain ⟨kind, declares⟩ := Option.isSome_iff_exists.mp declares
    exact Node.reports_alike declares same_siblings same_text same_texts origin

/-- An error in one class spoils the class around it, and not the one behind it. -/
example :
    (SyntaxUnit.ofSource "a"
      "class Box { class Lid { int = ; } }\nenum Size { BIG }").declarations =
      [.error (.malformed "a" .cls "Box" 1), .error (.malformed "a" .cls "Lid" 1),
        .ok (.ofEnum { name := "Size", constants := ["BIG"], line := 2 })] := by
  decide +kernel

end JavaDiagram.Java
