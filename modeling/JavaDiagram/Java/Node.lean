import JavaDiagram.Java.Source

/-!
# Syntax trees

A node has a kind, perhaps a label that says which part of its parent it is, an extent, and its
children in source order. Only constructs that matter to diagrams have a kind of their own, and the
children of all others may stand directly under what holds those.
-/

namespace JavaDiagram.Java

/-- What a node stands for. -/
inductive NodeKind where
  | program
  | classDeclaration
  | interfaceDeclaration
  | enumDeclaration
  | modifiers
  | annotationUse
  | superclass
  | superInterfaces
  | extendsInterfaces
  | typeList
  | classBody
  | enumBody
  | enumConstant
  | enumMembers
  | fieldDeclaration
  | variableDeclarator
  | methodDeclaration
  | constructorDeclaration
  | formalParameters
  | formalParameter
  | spreadParameter
  | type
  | qualifiedName
  | block
  | methodInvocation
  | objectCreation
  | fieldAccess
  | arrayAccess
  | expression
  | identifier
  | literal
  /-- A keyword, operator or separator. -/
  | token
  | lineComment
  | blockComment
  /-- Text that fits nowhere, or the place of text that is absent. -/
  | error
  deriving DecidableEq, Repr

/-- Which part of its parent a node is. -/
inductive NodeLabel where
  | name
  | type
  | body
  | superclass
  | interfaces
  | declarator
  | parameters
  | object
  deriving DecidableEq, Repr

/-- A node of a syntax tree. -/
inductive Node where
  | mk (kind : NodeKind) (label : Option NodeLabel) (extent : Extent) (children : List Node)
  deriving Repr

namespace Node

def kind : Node → NodeKind
  | mk kind _ _ _ => kind

def label : Node → Option NodeLabel
  | mk _ label _ _ => label

def extent : Node → Extent
  | mk _ _ extent _ => extent

def children : Node → List Node
  | mk _ _ _ children => children

def leaf (kind : NodeKind) (extent : Extent) : Node :=
  mk kind none extent []

def line (node : Node) : Nat :=
  node.extent.line

def text (source : SourceText) (node : Node) : String :=
  source.slice node.extent

def isComment (node : Node) : Bool :=
  node.kind == .lineComment || node.kind == .blockComment

/-- Whether a node is more than a keyword, operator or separator. -/
def isNamed (node : Node) : Bool :=
  node.kind != .token

/-- The node as a part of its parent. Comments are never a part. -/
def withLabel (label : NodeLabel) : Node → Node
  | node@(mk kind _ extent children) =>
    if node.isComment then node else mk kind (some label) extent children

def part? (node : Node) (label : NodeLabel) : Option Node :=
  node.children.find? (·.label == some label)

def parts (node : Node) (label : NodeLabel) : List Node :=
  node.children.filter (·.label == some label)

def child? (node : Node) (kind : NodeKind) : Option Node :=
  node.children.find? (·.kind == kind)

def childrenOf (node : Node) (kind : NodeKind) : List Node :=
  node.children.filter (·.kind == kind)

/-- The children that are more than keywords, operators and separators. -/
def namedChildren (node : Node) : List Node :=
  node.children.filter isNamed

mutual

/-- A node and all below it, each before what is below it, in source order. -/
def preorder : Node → List Node
  | mk kind label extent children =>
    mk kind label extent children :: preorderAll children

def preorderAll : List Node → List Node
  | [] => []
  | node :: rest => preorder node ++ preorderAll rest

end

/-- Whether a syntax error lies in a node. -/
def hasError (node : Node) : Bool :=
  node.preorder.any (·.kind == .error)

mutual

/-- All nodes in the order of `preorder`, each with its earlier siblings, the nearest first. -/
def visits (before : List Node) : Node → List (List Node × Node)
  | mk kind label extent children =>
    (before, mk kind label extent children) :: visitsAll [] children

/-- The visits of siblings whose earlier siblings are given. -/
def visitsAll (before : List Node) : List Node → List (List Node × Node)
  | [] => []
  | node :: rest => visits before node ++ visitsAll (node :: before) rest

end

end Node

end JavaDiagram.Java
