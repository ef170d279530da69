import JavaDiagram.Analysis
import JavaDiagram.Proofs.ClassHeaders
import JavaDiagram.Proofs.DeclarationSubtrees
import JavaDiagram.Proofs.Edges

/-!
# Comments in the clauses of a declaration

The supertypes of a declaration are read off the named nodes of its clauses, one name from the text
of each. Comments are named nodes, so one that stands directly in such a list is read as a type.
Deleting the comments takes away exactly their names, and an inheritance edge is drawn for every
listed node, comment or not, whose name is that of a declared class.
-/

namespace JavaDiagram.Java

namespace Node

/-! ### Deleting comments -/

mutual

/-- A node with all comments below it deleted. -/
def withoutComments : Node → Node
  | mk kind label extent children => mk kind label extent (withoutCommentsAll children)

/-- Nodes with the comments among and below them deleted. -/
def withoutCommentsAll : List Node → List Node
  | [] => []
  | node :: rest =>
    if node.isComment then withoutCommentsAll rest
    else withoutComments node :: withoutCommentsAll rest

end

/-- What deleting comments leaves of several nodes. -/
def cleaned (nodes : List Node) : List Node :=
  (nodes.filter (!·.isComment)).map withoutComments

/-- Whether a node is a clause that lists supertypes of the declaration that it stands in. -/
def isSupertypeClause (node : Node) : Bool :=
  node.label == some .superclass || node.label == some .interfaces ||
    node.kind == .extendsInterfaces

/-- A child of a declaration; if it is a clause with supertypes, without comments. -/
def cleanedClause (child : Node) : Node :=
  if child.isSupertypeClause then child.withoutComments else child

/-- A declaration with all comments inside of its clauses deleted. -/
def withoutClauseComments : Node → Node
  | mk kind label extent children => mk kind label extent (children.map cleanedClause)

theorem withoutCommentsAll_eq (nodes : List Node) :
    withoutCommentsAll nodes = cleaned nodes := by
  induction nodes with
  | nil => rfl
  | cons node rest ih =>
    rw [withoutCommentsAll, ih]
    cases comment : node.isComment <;> simp [cleaned, comment]

theorem kind_withoutComments (node : Node) : node.withoutComments.kind = node.kind := by
  cases node
  rw [withoutComments]
  rfl

theorem label_withoutComments (node : Node) : node.withoutComments.label = node.label := by
  cases node
  rw [withoutComments]
  rfl

theorem text_withoutComments (source : SourceText) (node : Node) :
    node.withoutComments.text source = node.text source := by
  cases node
  rw [withoutComments]
  rfl

theorem children_withoutComments (node : Node) :
    node.withoutComments.children = cleaned node.children := by
  cases node
  rw [withoutComments, children, withoutCommentsAll_eq]
  rfl

theorem kind_cleanedClause (child : Node) : child.cleanedClause.kind = child.kind := by
  rw [cleanedClause]
  split
  · exact child.kind_withoutComments
  · rfl

theorem label_cleanedClause (child : Node) : child.cleanedClause.label = child.label := by
  rw [cleanedClause]
  split
  · exact child.label_withoutComments
  · rfl

theorem children_withoutClauseComments (node : Node) :
    node.withoutClauseComments.children = node.children.map cleanedClause := by
  cases node
  rfl

/-! ### Listed nodes -/

/-- The nodes listed in a clause. -/
def listedNodes (clause : Node) : List Node :=
  (clause.childrenOf .typeList).flatMap namedChildren

/-- The nodes whose texts tell the types that a declaration extends. -/
def superTypeNodes (node : Node) : List Node :=
  ((node.part? .superclass).map namedChildren).getD [] ++
    (node.childrenOf .extendsInterfaces).flatMap listedNodes

/-- The nodes whose texts tell the types that a declaration implements. -/
def interfaceNodes (node : Node) : List Node :=
  ((node.part? .interfaces).map listedNodes).getD []

/-- The names that the texts of listed nodes give. -/
def supertypeNames (source : SourceText) (nodes : List Node) : List String :=
  nodes.map fun node => supertypeName (node.text source)

theorem listedTypes_eq (source : SourceText) (clause : Node) :
    clause.listedTypes source = supertypeNames source clause.listedNodes :=
  List.map_flatMap.symm

theorem superTypes_eq (source : SourceText) (node : Node) :
    node.superTypes source = supertypeNames source node.superTypeNodes := by
  have lists : (node.childrenOf .extendsInterfaces).flatMap (listedTypes source) =
      supertypeNames source ((node.childrenOf .extendsInterfaces).flatMap listedNodes) := by
    rw [supertypeNames, List.map_flatMap]
    exact List.flatMap_congr fun clause _ => clause.listedTypes_eq source
  rw [superTypes, lists, superTypeNodes, supertypeNames, supertypeNames, List.map_append]
  cases node.part? .superclass <;> rfl

theorem interfaces_eq (source : SourceText) (node : Node) :
    node.interfaces source = supertypeNames source node.interfaceNodes := by
  rw [interfaces, interfaceNodes]
  cases node.part? .interfaces with
  | none => rfl
  | some clause => exact clause.listedTypes_eq source

/-! ### Listed nodes without comments -/

theorem cleaned_append (front back : List Node) :
    cleaned (front ++ back) = cleaned front ++ cleaned back := by
  rw [cleaned, List.filter_append, List.map_append]
  rfl

theorem cleaned_flatMap (list : Node → List Node) (nodes : List Node) :
    cleaned (nodes.flatMap list) = nodes.flatMap fun node => cleaned (list node) := by
  rw [cleaned, List.filter_flatMap, List.map_flatMap]
  rfl

theorem supertypeNames_cleaned (source : SourceText) (nodes : List Node) :
    supertypeNames source (cleaned nodes) =
      supertypeNames source (nodes.filter (!·.isComment)) := by
  rw [supertypeNames, cleaned, List.map_map]
  exact List.map_congr_left fun node _ =>
    congrArg supertypeName (text_withoutComments source node)

theorem filter_cleaned {test : Node → Bool}
    (blind : ∀ node : Node, test node.withoutComments = test node) (nodes : List Node) :
    (cleaned nodes).filter test = cleaned (nodes.filter test) := by
  have same : test ∘ withoutComments = test := funext blind
  rw [cleaned, List.filter_map, same, List.filter_filter, cleaned, List.filter_filter]
  simp only [Bool.and_comm]

theorem namedChildren_withoutComments (node : Node) :
    node.withoutComments.namedChildren = cleaned node.namedChildren := by
  rw [namedChildren, children_withoutComments]
  exact filter_cleaned (fun node => by rw [isNamed, kind_withoutComments, isNamed]) node.children

theorem typeLists_withoutComments (clause : Node) :
    clause.withoutComments.childrenOf .typeList =
      (clause.childrenOf .typeList).map withoutComments := by
  -- A list of types is no comment, so each one is kept, and only what is in it changes.
  have no_comment : (clause.childrenOf .typeList).filter (!·.isComment) =
      clause.childrenOf .typeList := by
    apply List.filter_eq_self.mpr
    intro list listed
    have kind := eq_of_beq (List.mem_filter.mp listed).2
    simp [isComment, kind]
  rw [childrenOf, children_withoutComments,
    filter_cleaned fun node => by rw [kind_withoutComments]]
  exact congrArg (List.map withoutComments) no_comment

theorem listedNodes_withoutComments (clause : Node) :
    clause.withoutComments.listedNodes = cleaned clause.listedNodes := by
  rw [listedNodes, typeLists_withoutComments, List.flatMap_map, listedNodes, cleaned_flatMap]
  exact List.flatMap_congr fun list _ => list.namedChildren_withoutComments

theorem cleanedClause_of_clause {child : Node} (clause : child.isSupertypeClause = true) :
    child.cleanedClause = child.withoutComments :=
  if_pos clause

theorem label_of_part? {node part : Node} {label : NodeLabel}
    (found : node.part? label = some part) : part.label = some label := by
  unfold part? at found
  simpa using List.find?_some found

theorem part?_withoutClauseComments {label : NodeLabel}
    (lists : label = .superclass ∨ label = .interfaces) (node : Node) :
    node.withoutClauseComments.part? label = (node.part? label).map withoutComments := by
  have same : (fun child : Node => child.label == some label) ∘ cleanedClause =
      fun child => child.label == some label :=
    funext fun child => by rw [Function.comp_apply, label_cleanedClause]
  rw [part?, children_withoutClauseComments, List.find?_map, same, ← part?]
  cases found : node.part? label with
  | none => rfl
  | some clause =>
    -- What is found by this label is a clause, so it is among the children that change.
    have labelled := label_of_part? found
    have isClause : clause.isSupertypeClause = true := by
      rcases lists with rfl | rfl <;> simp [isSupertypeClause, labelled]
    rw [Option.map_some, Option.map_some, cleanedClause_of_clause isClause]

theorem extendsLists_withoutClauseComments (node : Node) :
    node.withoutClauseComments.childrenOf .extendsInterfaces =
      (node.childrenOf .extendsInterfaces).map withoutComments := by
  have same : (fun child : Node => child.kind == .extendsInterfaces) ∘ cleanedClause =
      fun child => child.kind == .extendsInterfaces :=
    funext fun child => by rw [Function.comp_apply, kind_cleanedClause]
  rw [childrenOf, children_withoutClauseComments, List.filter_map, same]
  apply List.map_congr_left
  intro clause listed
  have kind : clause.kind = .extendsInterfaces := eq_of_beq (List.mem_filter.mp listed).2
  exact cleanedClause_of_clause (by simp [isSupertypeClause, kind])

theorem superTypeNodes_withoutClauseComments (node : Node) :
    node.withoutClauseComments.superTypeNodes = cleaned node.superTypeNodes := by
  have lists : (node.withoutClauseComments.childrenOf .extendsInterfaces).flatMap listedNodes =
      cleaned ((node.childrenOf .extendsInterfaces).flatMap listedNodes) := by
    rw [extendsLists_withoutClauseComments, List.flatMap_map, cleaned_flatMap]
    exact List.flatMap_congr fun clause _ => clause.listedNodes_withoutComments
  rw [superTypeNodes, lists, part?_withoutClauseComments (Or.inl rfl), superTypeNodes,
    cleaned_append]
  cases node.part? .superclass with
  | none => rfl
  | some clause => exact congrArg (· ++ _) clause.namedChildren_withoutComments

theorem interfaceNodes_withoutClauseComments (node : Node) :
    node.withoutClauseComments.interfaceNodes = cleaned node.interfaceNodes := by
  rw [interfaceNodes, part?_withoutClauseComments (Or.inr rfl), interfaceNodes]
  cases node.part? .interfaces with
  | none => rfl
  | some clause => exact clause.listedNodes_withoutComments

/-- Deleting the comments among listed nodes keeps all their names only if there are none. -/
theorem supertypeNames_filter_iff (source : SourceText) (nodes : List Node) :
    supertypeNames source (nodes.filter (!·.isComment)) = supertypeNames source nodes ↔
      ∀ node ∈ nodes, node.isComment = false := by
  constructor
  · -- A comment that is taken away makes the list of names shorter.
    intro same
    have lengths := congrArg List.length same
    rw [supertypeNames, supertypeNames, List.length_map, List.length_map,
      List.length_filter_eq_length_iff] at lengths
    simpa using lengths
  · intro no_comment
    rw [List.filter_eq_self.mpr (by simpa using no_comment)]

/-- A class declaration of any text lists one type to extend at most, comments apart. -/
theorem length_superTypeNodes_le (cs : List Char) {node : Node}
    (within : node ∈ (Grammar.parse cs).preorder) (isClass : node.kind = .classDeclaration) :
    (node.superTypeNodes.filter (!·.isComment)).length ≤ 1 := by
  have parts : ∀ part ∈ node.children, part.IsClassPart := fun part =>
    Grammar.isClassPart_of_parse cs within isClass
  -- Lists of interfaces to extend stand in interfaces only, so the superclass clause is all.
  have no_lists : node.childrenOf .extendsInterfaces = [] := by
    apply List.filter_eq_nil_iff.mpr
    intro part member
    simpa using (parts part member).1
  rw [superTypeNodes, no_lists, List.flatMap_nil, List.append_nil]
  cases found : node.part? .superclass with
  | none => exact Nat.zero_le 1
  | some clause =>
    exact (parts clause (List.mem_of_find?_eq_some found)).2 (label_of_part? found)

/-- Whether types are read off some parts of a declaration, and deleting the comments inside of its
clauses takes away the names of the comments among these parts and no others. So all types stay the
same only if there is none. -/
def IsReadOff (source : SourceText) (types : Node → List String) (partsOf : Node → List Node)
    (node : Node) : Prop :=
  types node = supertypeNames source (partsOf node) ∧
    types node.withoutClauseComments =
      supertypeNames source ((partsOf node).filter (!·.isComment)) ∧
    (types node.withoutClauseComments = types node ↔
      ∀ part ∈ partsOf node, part.isComment = false)

theorem isReadOff_of_cleaned {source : SourceText} {types : Node → List String}
    {partsOf : Node → List Node} {node : Node}
    (reads : ∀ node, types node = supertypeNames source (partsOf node))
    (cleans : partsOf node.withoutClauseComments = cleaned (partsOf node)) :
    node.IsReadOff source types partsOf := by
  have kept : types node.withoutClauseComments =
      supertypeNames source ((partsOf node).filter (!·.isComment)) := by
    rw [reads, cleans, supertypeNames_cleaned]
  refine ⟨reads node, kept, ?_⟩
  rw [kept, reads]
  exact supertypeNames_filter_iff source (partsOf node)

end Node

/-! ### Inheritance edges -/

/-- Whether a node declares a class or interface that reaches the model. -/
def Node.IsUsableClass (source : SourceText) (node : Node) : Prop :=
  (node.kind = .classDeclaration ∨ node.kind = .interfaceDeclaration) ∧ node.hasError = false ∧
    Text.isAllBlank (node.partText source .name) = false

/-- Whether a text declares a class or interface of this name that has, among some of its parts, one
whose text gives the type. -/
def ListsType (partsOf : Node → List Node) (text name type : String) : Prop :=
  let source : SourceText := text.toList.toArray
  ∃ node ∈ (Grammar.parse text.toList).preorder,
    node.IsUsableClass source ∧ node.partText source .name = name ∧
      ∃ part ∈ partsOf node, TypeName.normalize (Node.supertypeName (part.text source)) = type

theorem committed?_declarationOf_iff {kind : DeclarationKind} (apart : kind ≠ .enum)
    (source : SourceText) (origin : String) (before : List Node) (node : Node)
    (decl : ClassSyntax) :
    committed? (node.declarationOf source origin before kind) = some (.ofClass decl) ↔
      (node.hasError = false ∧ Text.isAllBlank (node.partText source .name) = false) ∧
        node.classSyntax source before (node.partText source .name) = decl := by
  have opened : node.declarationOf source origin before kind =
      if (node.partText source .name).isEmpty then .error (.unnamed origin kind node.line)
      else if node.hasError then
        .error (.malformed origin kind (node.partText source .name) node.line)
      else .ok (.ofClass (node.classSyntax source before (node.partText source .name))) := by
    cases kind with
    | enum => exact absurd rfl apart
    | cls | interface => rfl
  rw [opened]
  split
  next empty =>
    -- An empty name is blank, so what is unnamed is left out on both sides.
    have blank : Text.isAllBlank (node.partText source .name) = true := by
      rw [String.isEmpty_iff] at empty
      rw [empty]
      rfl
    simp [committed?, blank]
  next =>
    split
    next damaged => simp [committed?, damaged]
    next whole =>
      show (if Text.isAllBlank (node.partText source .name) then _ else _) = _ ↔ _
      cases Text.isAllBlank (node.partText source .name) <;> simp [whole]

theorem committed?_enum_ne (source : SourceText) (origin : String) (before : List Node)
    (node : Node) (decl : ClassSyntax) :
    committed? (node.declarationOf source origin before .enum) ≠ some (.ofClass decl) := by
  rw [Node.declarationOf]
  split_ifs <;> simp [committed?]

theorem committed?_resultAt?_iff (source : SourceText) (origin : String)
    (visit : List Node × Node) (decl : ClassSyntax) :
    (Node.resultAt? source origin visit).bind committed? = some (.ofClass decl) ↔
      visit.2.IsUsableClass source ∧
        visit.2.classSyntax source visit.1 (visit.2.partText source .name) = decl := by
  obtain ⟨before, node⟩ := visit
  rw [Node.resultAt?, Node.IsUsableClass, Node.declarationKind?]
  dsimp only
  split
  next kind =>
    rw [Option.map_some, Option.bind_some,
      committed?_declarationOf_iff (show DeclarationKind.cls ≠ .enum by decide)]
    simp [kind]
  next kind =>
    rw [Option.map_some, Option.bind_some,
      committed?_declarationOf_iff (show DeclarationKind.interface ≠ .enum by decide)]
    simp [kind]
  next kind =>
    rw [Option.map_some, Option.bind_some]
    simp [kind, committed?_enum_ne]
  next no_class no_interface _ =>
    have other : ¬ (node.kind = .classDeclaration ∨ node.kind = .interfaceDeclaration) :=
      not_or.mpr ⟨no_class, no_interface⟩
    simp [other]

/-- The units of several texts, each given with its origin. -/
def unitsOf (texts : List (String × String)) : List SyntaxUnit :=
  texts.map fun (origin, text) => SyntaxUnit.ofSource origin text

theorem mem_classesOf_iff {decls : List Declaration} {decl : ClassSyntax} :
    decl ∈ classesOf decls ↔ .ofClass decl ∈ decls := by
  rw [classesOf, List.mem_filterMap]
  constructor
  · rintro ⟨other, member, same⟩
    cases other <;> cases same
    exact member
  · exact fun member => ⟨_, member, rfl⟩

/-- The classes and interfaces of several texts are those of usable nodes in their trees. -/
theorem mem_classesOf_unitsOf {texts : List (String × String)} {decl : ClassSyntax} :
    decl ∈ classesOf (committedDeclarations (unitsOf texts)) ↔
      ∃ text ∈ texts.map (·.2), ∃ visit ∈ (Grammar.parse text.toList).visits [],
        visit.2.IsUsableClass text.toList.toArray ∧
          visit.2.classSyntax text.toList.toArray visit.1
            (visit.2.partText text.toList.toArray .name) = decl := by
  have of_text (origin text : String) :
      .ofClass decl ∈ (SyntaxUnit.ofSource origin text).committed ↔
        ∃ visit ∈ (Grammar.parse text.toList).visits [],
          (Node.resultAt? text.toList.toArray origin visit).bind committed? =
            some (.ofClass decl) := by
    rw [SyntaxUnit.ofSource, SyntaxUnit.ofTree, SyntaxUnit.committed, Node.declarations_eq,
      List.filterMap_filterMap, List.mem_filterMap]
  simp only [committedDeclarations, unitsOf, mem_classesOf_iff, List.mem_flatMap,
    List.mem_map, exists_exists_and_eq_and, of_text, committed?_resultAt?_iff]

/-- Where a clause is read off some parts of a declaration, the declarations that name a type in it
are those with a part that gives the type. -/
theorem exists_namesType_iff (clause : ClassSyntax → List String) (partsOf : Node → List Node)
    (reads : ∀ source before node name, clause (Node.classSyntax source before node name) =
      Node.supertypeNames source (partsOf node))
    (texts : List (String × String)) (name type : String) :
    (∃ decl ∈ classesOf (committedDeclarations (unitsOf texts)),
        decl.name = name ∧ decl.NamesType clause type) ↔
      ∃ text ∈ texts.map (·.2), ListsType partsOf text name type := by
  constructor
  · rintro ⟨decl, member, rfl, written, listed, normal⟩
    obtain ⟨text, given, visit, visited, usable, rfl⟩ := mem_classesOf_unitsOf.mp member
    rw [reads] at listed
    obtain ⟨part, among, rfl⟩ := List.mem_map.mp listed
    exact ⟨text, given, visit.2, Node.mem_preorder_of_visited visited, usable, rfl, part, among,
      normal⟩
  · rintro ⟨text, given, node, within, usable, rfl, part, among, normal⟩
    rw [← Node.map_visits []] at within
    obtain ⟨visit, visited, rfl⟩ := List.mem_map.mp within
    refine ⟨_, mem_classesOf_unitsOf.mpr ⟨text, given, visit, visited, usable, rfl⟩, rfl,
      Node.supertypeName (part.text text.toList.toArray), ?_, normal⟩
    rw [reads]
    exact List.mem_map_of_mem among

end JavaDiagram.Java

namespace JavaDiagram

open Java

/-- The supertypes of a declaration are the names of the nodes that its clauses list, comments
included; a class lists one type to extend at most, comments apart. An inheritance edge leads from
a name to a declared class exactly if a declaration of that name lists a node that gives the
class. -/
theorem supertypes_of_listedNodes (source : SourceText) (node : Node) (cs : List Char)
    (texts : List (String × String)) :
    let model := (Analysis.ofTexts texts).model
    node.IsReadOff source (Node.superTypes source) Node.superTypeNodes ∧
    node.IsReadOff source (Node.interfaces source) Node.interfaceNodes ∧
    (∀ inner ∈ (Grammar.parse cs).preorder, inner.kind = .classDeclaration →
      (inner.superTypeNodes.filter (!·.isComment)).length ≤ 1) ∧
    ∀ name type : String,
      (⟨.inherits, name, type⟩ ∈ ClassDiagram.edges model ↔ model.classes.contains type = true ∧
        ∃ text ∈ texts.map (·.2), ListsType Node.superTypeNodes text name type) ∧
      (⟨.implements, name, type⟩ ∈ ClassDiagram.edges model ↔ model.classes.contains type = true ∧
        ∃ text ∈ texts.map (·.2), ListsType Node.interfaceNodes text name type) := by
  intro model
  have closed : ClosedForm (committedDeclarations (unitsOf texts)) model :=
    (closedForm_iff_ingestAll (unitsOf texts) model).mpr rfl
  refine ⟨?_, ?_, ?_, fun name type => ⟨?_, ?_⟩⟩
  · exact Node.isReadOff_of_cleaned (Node.superTypes_eq source)
      node.superTypeNodes_withoutClauseComments
  · exact Node.isReadOff_of_cleaned (Node.interfaces_eq source)
      node.interfaceNodes_withoutClauseComments
  · exact fun inner within isClass => inner.length_superTypeNodes_le cs within isClass
  · rw [closed.mem_edges_iff, closed.contains_class_iff, and_comm,
      ← exists_namesType_iff (·.superTypes) Node.superTypeNodes fun source _ node _ =>
        Node.superTypes_eq source node]
    rfl
  · rw [closed.mem_edges_iff, closed.contains_class_iff, and_comm,
      ← exists_namesType_iff (·.interfaces) Node.interfaceNodes fun source _ node _ =>
        Node.interfaces_eq source node]
    rfl

/-- A comment between the word and the type of a clause is read as a type. -/
theorem not_without_comments :
    ¬ ∀ text : String, ∀ node ∈ (Grammar.parse text.toList).preorder,
      (node.kind = .classDeclaration ∨ node.kind = .interfaceDeclaration) →
      node.hasError = false →
      node.withoutClauseComments.superTypes text.toList.toArray =
          node.superTypes text.toList.toArray ∧
        node.withoutClauseComments.interfaces text.toList.toArray =
          node.interfaces text.toList.toArray := by
  intro all
  have circle := all "class Circle extends // once geo.Old\n    Shape {}\n"
  exact absurd circle (by decide +kernel)

end JavaDiagram
