import JavaDiagram.Diagram.Comment
import JavaDiagram.Java.Declaration
import JavaDiagram.Model.Entity
import JavaDiagram.Model.FlowPattern
import JavaDiagram.Model.NameSet
import JavaDiagram.TypeName
import JavaDiagram.Text.Blank
import JavaDiagram.Text.Lines

/-!
# From declarations to entities

A declaration is built completely before anything of it reaches the model. Types are brought into
normal form here, and each call site becomes a call record whose target is read off the text.
-/

namespace JavaDiagram

/-- The target of a call without a receiver. -/
def selfTarget : String := "this"

def Java.Modifiers.visibility (modifiers : Java.Modifiers) : Visibility :=
  .ofModifiers modifiers.isPrivate modifiers.isPublic modifiers.isProtected

/-- The text before the first dot, without blanks around it. -/
def receiverTarget (receiver : String) : String :=
  String.ofList (Text.trim (receiver.toList.takeWhile (· != '.')))

/-- The call record of a site. A creation uses the constructed class under its own name. -/
def CallRecord.ofSite : Java.Site → CallRecord
  | .creation typeText line =>
    let type := TypeName.normalize typeText
    ⟨type, type, .construction, line⟩
  | .call receiver name line =>
    ⟨(receiver.map receiverTarget).getD selfTarget, name, .onInstance, line⟩

/-- The normal form of the type that a site constructs. -/
def constructedType : Java.Site → Option String
  | .creation typeText _ => some (TypeName.normalize typeText)
  | .call .. => none

namespace Java.MethodSyntax

def isOverride (method : MethodSyntax) : Bool :=
  method.annotations.contains "Override"

def kind (method : MethodSyntax) : MethodKind :=
  classifyMethod method.name method.params.length method.isOverride

/-- The sites of a method's body; none without a body. -/
def sites (method : MethodSyntax) : List Site :=
  match method.body with
  | some body => body.sites
  | none => []

/-- The text of a method's body; empty without a body. -/
def bodyText (method : MethodSyntax) : String :=
  match method.body with
  | some body => body.text
  | none => ""

/-- What a class block shows of a method. -/
def member (method : MethodSyntax) (kind : Option MethodKind) : Member where
  visibility := method.modifiers.visibility
  annotations := method.annotations
  returnType := method.returnType.map TypeName.normalize
  name := method.name
  params := method.params.map fun p => ⟨TypeName.normalize p.typeText, p.name⟩
  kind := kind

/-- What the call walk knows of a method. Without a result type it gives its owner. -/
def record (owner : String) (isConstructor : Bool) (method : MethodSyntax) : MethodRecord where
  owner := owner
  name := method.name
  returnType := (method.returnType.map TypeName.normalize).getD owner
  paramTypes := method.params.map fun p => TypeName.normalize p.typeText
  visibility := method.modifiers.visibility
  isConstructor := isConstructor
  isStatic := method.modifiers.isStatic
  flowPatterns := FlowPattern.detect method.bodyText method.modifiers.isSynchronized
  calls := method.sites.map CallRecord.ofSite

end Java.MethodSyntax

/-- What a declaration adds to the model. -/
inductive BuiltDeclaration where
  | ofClass (entity : ClassEntity) (uses : NameSet) (superTypes interfaces : List String)
      (methods : List MethodRecord)
  | ofEnum (entity : EnumEntity) (methods : List MethodRecord)
  deriving DecidableEq, Repr

def BuiltDeclaration.name : BuiltDeclaration → String
  | ofClass entity .. => entity.name
  | ofEnum entity _ => entity.name

namespace Java.ClassSyntax

def kind (decl : ClassSyntax) : ClassKind :=
  if decl.isInterface then .interface
  else if decl.modifiers.isAbstract then .abstract
  else .concrete

/-- The methods of the class whose kind passes a test, as a class block shows them. -/
def membersWhere (decl : ClassSyntax) (test : MethodKind → Bool) : List Member :=
  (decl.methods.filter fun m => test m.kind).map fun m => m.member (some m.kind)

def entity (decl : ClassSyntax) : ClassEntity where
  name := decl.name
  kind := decl.kind
  annotations := decl.annotations
  comment := (decl.javadoc.map Javadoc.summary).getD ""
  fields := decl.fields.map fun f =>
    ⟨f.modifiers.visibility, f.annotations, TypeName.normalize f.typeText, f.name⟩
  constructors := decl.constructors.map (·.member none)
  accessors := decl.membersWhere fun
    | .accessor => true
    | _ => false
  userMethods := decl.membersWhere fun
    | .user => true
    | _ => false
  frameworkMethods := decl.membersWhere fun
    | .framework _ | .override => true
    | _ => false

/-- The types that the class uses: those of its fields and those that its methods construct. The
bodies of constructors do not count, and no class uses itself. -/
def uses (decl : ClassSyntax) : NameSet :=
  let fieldTypes := decl.fields.map fun f => TypeName.normalize f.typeText
  let constructed := decl.methods.flatMap fun m => m.sites.filterMap constructedType
  NameSet.insertAll ((fieldTypes ++ constructed).filter (· != decl.name)) []

/-- The method records of the class: methods first, then constructors. -/
def records (decl : ClassSyntax) : List MethodRecord :=
  decl.methods.map (·.record decl.name false) ++ decl.constructors.map (·.record decl.name true)

def build (decl : ClassSyntax) : BuiltDeclaration :=
  .ofClass decl.entity decl.uses (decl.superTypes.map TypeName.normalize)
    (decl.interfaces.map TypeName.normalize) decl.records

end Java.ClassSyntax

def Java.EnumSyntax.build (decl : Java.EnumSyntax) : BuiltDeclaration :=
  .ofEnum ⟨decl.name, decl.constants⟩ (decl.methods.map (·.record decl.name false))

/-- Builds a declaration; one with a blank name cannot be built. -/
def Java.Declaration.build (origin : String) (decl : Java.Declaration) :
    Except Java.DeclarationError BuiltDeclaration :=
  -- Reading the tree refuses empty names only.
  if Text.isAllBlank decl.name then .error (.unnamed origin decl.kind decl.line)
  else
    match decl with
    | .ofClass c => .ok c.build
    | .ofEnum e => .ok e.build

end JavaDiagram
