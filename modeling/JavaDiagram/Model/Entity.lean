import JavaDiagram.Classification

/-!
# Entities and method records

An entity is what the class diagram shows of a declaration; a method record is what the call walk
follows. Both are built from the same declaration.
-/

namespace JavaDiagram

/-- How a class-like entity was declared. -/
inductive ClassKind where
  | concrete
  | abstract
  | interface
  deriving DecidableEq, Repr

namespace ClassKind

def name : ClassKind → String
  | concrete => "class"
  | abstract => "abstract-class"
  | interface => "interface"

/-- The first line of a class block. -/
def label : ClassKind → String
  | concrete => "🅲Class"
  | abstract => "🅰Abstract Class"
  | interface => "🅘Interface"

end ClassKind

/-- A field of an entity; its type is a normal form. -/
structure FieldEntity where
  visibility : Visibility := .package
  annotations : List String := []
  typeName : String
  name : String
  deriving DecidableEq, Repr

/-- A parameter of a member; its type is a normal form. -/
structure ParameterEntity where
  typeName : String
  name : String
  deriving DecidableEq, Repr

/-- Annotation names as they are written in front of a member. -/
def annotationText (annotations : List String) : String :=
  String.intercalate " " (annotations.map ("@" ++ ·))

/-- What a class block shows of a method or constructor. Constructors have neither a result type
nor a kind. -/
structure Member where
  visibility : Visibility := .package
  annotations : List String := []
  returnType : Option String := none
  name : String
  params : List ParameterEntity := []
  kind : Option MethodKind := none
  deriving DecidableEq, Repr

namespace Member

/-- The parameter list as it is shown, without its brackets. -/
def paramText (member : Member) : String :=
  String.intercalate ", " (member.params.map fun p => p.typeName ++ " " ++ p.name)

/-- `[@Ann ]glyph [type ]name(T a, ..)`. -/
def signature (member : Member) : String :=
  let annotations :=
    if member.annotations.isEmpty then "" else annotationText member.annotations ++ " "
  let result :=
    match member.returnType with
    | some type => type ++ " "
    | none => ""
  annotations ++ member.visibility.glyph ++ " " ++ result ++ member.name ++ "(" ++
    member.paramText ++ ")"

end Member

/-- A class or interface of the model. -/
structure ClassEntity where
  name : String
  kind : ClassKind := .concrete
  annotations : List String := []
  comment : String := ""
  fields : List FieldEntity := []
  constructors : List Member := []
  accessors : List Member := []
  userMethods : List Member := []
  frameworkMethods : List Member := []
  deriving DecidableEq, Repr

/-- An enum of the model. -/
structure EnumEntity where
  name : String
  constants : List String := []
  deriving DecidableEq, Repr

/-- How a call uses its target. -/
inductive CallKind where
  | onInstance
  | onClass
  | construction
  deriving DecidableEq, Repr

def CallKind.name : CallKind → String
  | .onInstance => "instance-call"
  | .onClass => "static-call"
  | .construction => "construction"

/-- One use of another method. The target is read off the source text and need not be a class. -/
structure CallRecord where
  target : String
  member : String
  kind : CallKind := .onInstance
  line : Nat := 0
  deriving DecidableEq, Repr

/-- A construct that the text of a body gives away. -/
inductive FlowPattern where
  | threadCreation
  | threadJoin
  | forLoop
  | conditional
  | arrayCreation
  | synchronized
  | systemOutput
  | threadSleep
  deriving DecidableEq, Repr

/-- What the call walk knows of a method or constructor. -/
structure MethodRecord where
  owner : String
  name : String
  returnType : String
  paramTypes : List String := []
  visibility : Visibility := .pub
  isConstructor : Bool := false
  isStatic : Bool := false
  flowPatterns : List FlowPattern := []
  calls : List CallRecord := []
  deriving DecidableEq, Repr

namespace MethodRecord

/-- Whether a method gives no result. -/
def returnsVoid (method : MethodRecord) : Bool :=
  method.returnType.isEmpty || method.returnType == "void"

/-- The name under which a method is looked up: its class and its own name. Overloads share it. -/
def key (method : MethodRecord) : String × String :=
  (method.owner, method.name)

end MethodRecord

end JavaDiagram
