import JavaDiagram.Java.Declaration
import JavaDiagram.Java.Grammar
import JavaDiagram.Text.Blank
import JavaDiagram.Text.Lines
import JavaDiagram.Text.Search

/-!
# Reading declarations off a syntax tree

Every class, interface and enum of a tree is a declaration of its own, in the order in which they
start. A declaration with a syntax error inside is reported instead; others are not affected. The
sites of a method are all calls and constructions below its body, in source order, those in nested
code included.
-/

namespace JavaDiagram.Java

variable (source : SourceText)

namespace Node

def partText? (node : Node) (label : NodeLabel) : Option String :=
  (node.part? label).map (·.text source)

/-- The text of the part with a label; empty without that part. -/
def partText (node : Node) (label : NodeLabel) : String :=
  (node.partText? source label).getD ""

/-! ### Modifiers, comments and types -/

/-- The modifiers with these words among them. -/
def modifiersOf (words : List String) : Modifiers where
  isPublic := words.contains "public"
  isPrivate := words.contains "private"
  isProtected := words.contains "protected"
  isStatic := words.contains "static"
  isAbstract := words.contains "abstract"
  isSynchronized := words.contains "synchronized"

def modifiers (node : Node) : Modifiers :=
  match node.child? .modifiers with
  | some list => modifiersOf ((list.childrenOf .token).map (·.text source))
  | none => {}

/-- The names of the annotations in front of a declaration. -/
def annotations (node : Node) : List String :=
  match node.child? .modifiers with
  | some list => (list.childrenOf .annotationUse).filterMap (·.partText? source .name)
  | none => []

/-- The documentation comment among the earlier siblings of a declaration, given from the nearest
one on: the first that is no line comment, if it is one. -/
def javadoc : (before : List Node) → Option String
  | [] => none
  | sibling :: rest =>
    -- Line comments may stand between the comment and the declaration.
    match sibling.kind with
    | .lineComment => javadoc rest
    | .blockComment =>
      let text := sibling.text source
      if Text.startsWith text "/**" then some text else none
    | _ => none

/-- The part of a text in front of its first type argument, behind its last dot. -/
def supertypeName (text : String) : String :=
  let unscoped := text.toList.takeWhile (· != '<')
  let last := ((Text.splitOn '.' unscoped).getLast?).getD []
  String.ofList (Text.trim last)

/-- The names of the types listed in a clause of a declaration. -/
def listedTypes (clause : Node) : List String :=
  -- A comment in the list is a named child, too, so it counts as a type.
  (clause.childrenOf .typeList).flatMap fun list =>
    list.namedChildren.map fun type => supertypeName (type.text source)

/-- The names of the types that a declaration extends. -/
def superTypes (node : Node) : List String :=
  let single :=
    match node.part? .superclass with
    | some clause => clause.namedChildren.map fun type => supertypeName (type.text source)
    | none => []
  single ++ (node.childrenOf .extendsInterfaces).flatMap (listedTypes source)

/-- The names of the interfaces that a class implements. -/
def interfaces (node : Node) : List String :=
  match node.part? .interfaces with
  | some clause => listedTypes source clause
  | none => []

/-! ### Members -/

def fields (node : Node) : List FieldSyntax :=
  (node.parts .declarator).filterMap fun declarator =>
    (declarator.partText? source .name).map fun name =>
      ⟨node.modifiers source, node.annotations source, node.partText source .type, name⟩

/-- One part of a parameter that takes any number of values, taken into what is known of it: the
last name counts, and the first text that is neither a name nor modifiers is the type. -/
def takeSpreadPart (param : Parameter) (part : Node) : Parameter :=
  match part.kind with
  | .modifiers => param
  | .variableDeclarator => { param with name := part.partText source .name }
  | .identifier => { param with name := part.text source }
  | _ => if param.typeText.isEmpty then { param with typeText := part.text source } else param

/-- A parameter that takes any number of values. -/
def spreadParameter (node : Node) : Parameter :=
  node.namedChildren.foldl (takeSpreadPart source) ⟨"", ""⟩

/-- The parameter that a part of a parameter list is, if it is one. -/
def parameter? (node : Node) : Option Parameter :=
  match node.kind with
  | .formalParameter => some ⟨node.partText source .type, node.partText source .name⟩
  | .spreadParameter => some (node.spreadParameter source)
  | _ => none

/-- The site that a node is, if it is one. -/
def site? (node : Node) : Option Site :=
  match node.kind with
  | .methodInvocation =>
    (node.partText? source .name).map fun name =>
      .call (node.partText? source .object) name node.line
  | .objectCreation => (node.partText? source .type).map fun type => .creation type node.line
  | _ => none

def bodySyntax (node : Node) : Body where
  text := node.text source
  sites := node.preorder.filterMap (site? source)

/-- A method, or a constructor, which has no result type. -/
def methodSyntax (node : Node) : MethodSyntax where
  name := node.partText source .name
  modifiers := node.modifiers source
  annotations := node.annotations source
  returnType :=
    if node.kind = .constructorDeclaration then none else node.partText? source .type
  params :=
    match node.part? .parameters with
    | some list => list.namedChildren.filterMap (parameter? source)
    | none => []
  body := (node.part? .body).map (bodySyntax source)
  line := node.line

/-! ### Declarations -/

/-- The members of a declaration's body. -/
def bodyChildren (node : Node) : List Node :=
  match node.part? .body with
  | some body => body.children
  | none => []

/-- A class or interface with its direct members. -/
def classSyntax (before : List Node) (node : Node) (name : String) : ClassSyntax :=
  let membersOf (kind : NodeKind) := node.bodyChildren.filter (·.kind == kind)
  { name := name
    isInterface := node.kind == .interfaceDeclaration
    modifiers := node.modifiers source
    annotations := node.annotations source
    javadoc := javadoc source before
    superTypes := node.superTypes source
    interfaces := node.interfaces source
    fields := (membersOf .fieldDeclaration).flatMap (fields source)
    methods := (membersOf .methodDeclaration).map (methodSyntax source)
    constructors := (membersOf .constructorDeclaration).map (methodSyntax source)
    line := node.line }

/-- An enum with its constants and its own methods. -/
def enumSyntax (node : Node) (name : String) : EnumSyntax :=
  let membersOf (kind : NodeKind) := node.bodyChildren.filter (·.kind == kind)
  { name := name
    constants := (membersOf .enumConstant).filterMap (partText? source · .name)
    -- Constructors and fields of an enum are shown nowhere.
    methods := (membersOf .enumMembers).flatMap fun members =>
      (members.childrenOf .methodDeclaration).map (methodSyntax source)
    line := node.line }

/-- The kind of declaration that a node is, if it is listed. -/
def declarationKind? (node : Node) : Option DeclarationKind :=
  match node.kind with
  | .classDeclaration => some .cls
  | .interfaceDeclaration => some .interface
  | .enumDeclaration => some .enum
  | _ => none

/-- A declaration of a known kind. -/
def declarationOf (origin : String) (before : List Node) (node : Node) (kind : DeclarationKind) :
    Except DeclarationError Declaration :=
  let name := node.partText source .name
  -- Without a name there is no further check: damage is not reported then.
  if name.isEmpty then .error (.unnamed origin kind node.line)
  else if node.hasError then .error (.malformed origin kind name node.line)
  else
    match kind with
    | .enum => .ok (.ofEnum (node.enumSyntax source name))
    | _ => .ok (.ofClass (node.classSyntax source before name))

/-- The declarations in a tree, in the order in which they start. -/
def declarations (origin : String) (tree : Node) :
    List (Except DeclarationError Declaration) :=
  (tree.visits []).filterMap fun (before, node) =>
    node.declarationKind?.map (node.declarationOf source origin before)

end Node

/-! ### Sources -/

/-- The declarations of a source text with its tree. -/
def SyntaxUnit.ofTree (origin : String) (cs : List Char) (tree : Node) : SyntaxUnit :=
  ⟨origin, tree.declarations cs.toArray origin⟩

/-- Reads one source text. -/
def SyntaxUnit.ofSource (origin text : String) : SyntaxUnit :=
  .ofTree origin text.toList (Grammar.parse text.toList)

/-- Why a source has no tree. -/
inductive TreeError where
  | grammar (message : String)
  | noTree (origin : String)
  deriving DecidableEq, Repr

def TreeError.message : TreeError → String
  | grammar message => "failed to load the Java grammar: " ++ message
  | noTree origin => "parser produced no syntax tree for " ++ origin

/-- What makes trees of source texts. The grammar itself makes one of every text. -/
structure Parser where
  /-- Why the grammar cannot be loaded, if it cannot. -/
  fault? : Option String := none
  tree? : List Char → Option Node := fun cs => some (Grammar.parse cs)

/-- Reads one source text with a parser. -/
def Parser.read (parser : Parser) (origin text : String) : Except TreeError SyntaxUnit :=
  match parser.fault? with
  -- What cannot be loaded is reported once by the parser and once more for the text.
  | some message => .error (.grammar (TreeError.message (.grammar message)))
  | none =>
    match parser.tree? text.toList with
    | some tree => .ok (.ofTree origin text.toList tree)
    | none => .error (.noTree origin)

end JavaDiagram.Java
