import JavaDiagram.Model.Entity
import JavaDiagram.Model.NameSet
import JavaDiagram.Model.Table

/-!
# The code model

Six tables: the entities by name, three relations between names, and the method records of each
class. The tables keep the order in which names first came, so every rendering is deterministic; a
later declaration of a name takes the place of an earlier one.
-/

namespace JavaDiagram

/-- Everything that is known of the ingested sources. -/
structure CodeModel where
  classes : Table ClassEntity := {}
  enums : Table EnumEntity := {}
  uses : Table NameSet := {}
  inherits : Table NameSet := {}
  implements : Table NameSet := {}
  methods : Table (List MethodRecord) := {}
  deriving DecidableEq, Repr

namespace CodeModel

def insertClass (model : CodeModel) (entity : ClassEntity) : CodeModel :=
  { model with classes := model.classes.put entity.name entity }

def insertEnum (model : CodeModel) (entity : EnumEntity) : CodeModel :=
  { model with enums := model.enums.put entity.name entity }

/-- Adds `target` to the names related to `source`. -/
def relate (edges : Table NameSet) (source target : String) : Table NameSet :=
  edges.update source [] (·.insert target)

def addUses (model : CodeModel) (source target : String) : CodeModel :=
  { model with uses := relate model.uses source target }

def addExtends (model : CodeModel) (sub sup : String) : CodeModel :=
  { model with inherits := relate model.inherits sub sup }

def addImplements (model : CodeModel) (sub sup : String) : CodeModel :=
  { model with implements := relate model.implements sub sup }

/-- Adds a method record after those its owner has. -/
def addMethod (model : CodeModel) (method : MethodRecord) : CodeModel :=
  { model with methods := model.methods.update method.owner [] (· ++ [method]) }

/-- Whether a name is a class, an interface or an enum of the model. -/
def isKnown (model : CodeModel) (name : String) : Bool :=
  model.classes.contains name || model.enums.contains name

/-- The method records of a class, in declaration order. -/
def methodsOf (model : CodeModel) (owner : String) : List MethodRecord :=
  (model.methods.get? owner).getD []

/-- The first method of `owner` that has the name; overloads are not told apart. -/
def findMethod (model : CodeModel) (owner name : String) : Option MethodRecord :=
  (model.methodsOf owner).find? (·.name == name)

end CodeModel

end JavaDiagram
