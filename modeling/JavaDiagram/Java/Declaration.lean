/-!
# Declarations as written

What one source text declares, before any meaning is given to it: type texts are exact slices of
the source, comments are unprocessed, and the calls of a body are listed in source order. A
declaration that cannot be used is an error in its place.
-/

namespace JavaDiagram.Java

/-- The modifiers that matter to diagrams. -/
structure Modifiers where
  isPublic : Bool := false
  isPrivate : Bool := false
  isProtected : Bool := false
  isStatic : Bool := false
  isAbstract : Bool := false
  isSynchronized : Bool := false
  deriving DecidableEq, Repr

/-- A parameter of a method or constructor. -/
structure Parameter where
  typeText : String
  name : String
  deriving DecidableEq, Repr

/-- A place in a body where another method is used. -/
inductive Site where
  /-- `receiver.name(..)`, or `name(..)` without a receiver. -/
  | call (receiver : Option String) (name : String) (line : Nat)
  /-- `new T(..)`. -/
  | creation (typeText : String) (line : Nat)
  deriving DecidableEq, Repr

def Site.line : Site → Nat
  | .call _ _ line => line
  | .creation _ line => line

/-- The text of a body and the sites in it. -/
structure Body where
  text : String
  sites : List Site
  deriving DecidableEq, Repr

/-- A method or constructor. A constructor has no result type. -/
structure MethodSyntax where
  name : String
  modifiers : Modifiers := {}
  annotations : List String := []
  returnType : Option String := none
  params : List Parameter := []
  body : Option Body := none
  line : Nat := 0
  deriving DecidableEq, Repr

/-- One declared field. -/
structure FieldSyntax where
  modifiers : Modifiers := {}
  annotations : List String := []
  typeText : String
  name : String
  deriving DecidableEq, Repr

/-- A class or interface with its direct members. -/
structure ClassSyntax where
  name : String
  isInterface : Bool := false
  modifiers : Modifiers := {}
  annotations : List String := []
  javadoc : Option String := none
  superTypes : List String := []
  interfaces : List String := []
  fields : List FieldSyntax := []
  methods : List MethodSyntax := []
  constructors : List MethodSyntax := []
  line : Nat := 0
  deriving DecidableEq, Repr

/-- An enum with its constants and the methods of its own body. -/
structure EnumSyntax where
  name : String
  constants : List String := []
  methods : List MethodSyntax := []
  line : Nat := 0
  deriving DecidableEq, Repr

/-- The three kinds of declaration that are listed. -/
inductive DeclarationKind where
  | cls
  | interface
  | enum
  deriving DecidableEq, Repr

def DeclarationKind.word : DeclarationKind → String
  | cls => "class"
  | interface => "interface"
  | enum => "enum"

/-- A usable declaration. -/
inductive Declaration where
  | ofClass (decl : ClassSyntax)
  | ofEnum (decl : EnumSyntax)
  deriving DecidableEq, Repr

namespace Declaration

def name : Declaration → String
  | ofClass decl => decl.name
  | ofEnum decl => decl.name

def line : Declaration → Nat
  | ofClass decl => decl.line
  | ofEnum decl => decl.line

def kind : Declaration → DeclarationKind
  | ofClass decl => if decl.isInterface then .interface else .cls
  | ofEnum _ => .enum

end Declaration

/-- Why a declaration cannot be used. The rest of its source is used all the same. -/
inductive DeclarationError where
  /-- The text of the declaration holds a syntax error. -/
  | malformed (origin : String) (kind : DeclarationKind) (name : String) (line : Nat)
  /-- The declaration has no name, or a blank one. -/
  | unnamed (origin : String) (kind : DeclarationKind) (line : Nat)
  deriving DecidableEq, Repr

namespace DeclarationError

def line : DeclarationError → Nat
  | malformed _ _ _ line => line
  | unnamed _ _ line => line

def message : DeclarationError → String
  | malformed origin kind name line =>
    origin ++ ":" ++ toString line ++ ": syntax error inside " ++ kind.word ++ " `" ++ name ++
      "`"
  | unnamed origin kind line =>
    origin ++ ":" ++ toString line ++ ": " ++ kind.word ++ " declaration without a name"

end DeclarationError

/-- All that one source text declares, in source order. -/
structure SyntaxUnit where
  origin : String
  declarations : List (Except DeclarationError Declaration) := []

end JavaDiagram.Java
