import JavaDiagram.Diagram.Comment
import JavaDiagram.Model.CodeModel
import JavaDiagram.Text.Lines

/-!
# Class diagrams

A class diagram is a list of lines: a header, a block for each enum, a block for each class, and
the edges. An edge is drawn only between names that have a block; inheritance never points at an
enum.
-/

namespace JavaDiagram.ClassDiagram

/-- The first line of every class diagram. -/
def header : String := "classDiagram"

def openBlock (name : String) : String :=
  "class " ++ name ++ " \x7b"

def closeBlock : String := "\x7d"

def enumLines (entity : EnumEntity) : List String :=
  [openBlock entity.name, "<<enumeration>>"] ++ entity.constants.map ("  " ++ ·) ++ [closeBlock]

def fieldLine (field : FieldEntity) : String :=
  let annotations :=
    if field.annotations.isEmpty then "" else annotationText field.annotations ++ " "
  "  " ++ annotations ++ field.visibility.fieldGlyph ++ " " ++ field.typeName ++ " " ++ field.name

/-- The marker in front of a constructor, or of a member without a kind. -/
def constructorMarker : String := "⚙"

/-- The line of a member: the marker of its kind and its signature. -/
def memberLine (member : Member) : String :=
  (member.kind.map MethodKind.marker).getD constructorMarker ++ " " ++ member.signature

def constructorLine (member : Member) : String :=
  constructorMarker ++ " " ++ member.signature

/-- A titled group; an empty group has no title either. -/
def groupLines (title : String) (line : Member → String) (members : List Member) : List String :=
  if members.isEmpty then [] else title :: members.map line

def classLines (entity : ClassEntity) : List String :=
  [openBlock entity.name, "  " ++ entity.kind.label] ++
    (if entity.annotations.isEmpty then [] else ["  " ++ annotationText entity.annotations]) ++
    (if entity.comment.isEmpty then [] else ["  %% " ++ Comment.summarize entity.comment]) ++
    entity.fields.map fieldLine ++
    groupLines "%% ⚙ Constructors" constructorLine entity.constructors ++
    groupLines "%% 🔘 Getters/Setters" memberLine entity.accessors ++
    groupLines "%% 🛠 User-Defined Methods" memberLine entity.userMethods ++
    groupLines "%% 🏛 System/Overridden Methods" memberLine entity.frameworkMethods ++
    [closeBlock]

/-- The three relations that edges show. -/
inductive EdgeKind where
  | uses
  | inherits
  | implements
  deriving DecidableEq, Repr

/-- An edge between two names. -/
structure Edge where
  kind : EdgeKind
  source : String
  target : String
  deriving DecidableEq, Repr

def Edge.line (edge : Edge) : String :=
  match edge.kind with
  | .uses => edge.source ++ " --> " ++ edge.target ++ " : uses"
  | .inherits => edge.source ++ " --|> " ++ edge.target ++ " : extends"
  | .implements => edge.source ++ " ..|> " ++ edge.target ++ " : implements"

/-- The edges of one relation whose ends pass a test, in table order. -/
def edgesOf (kind : EdgeKind) (shown : String → String → Bool) (relation : Table NameSet) :
    List Edge :=
  relation.entries.flatMap fun (source, targets) =>
    (targets.filter (shown source)).map (Edge.mk kind source)

def edges (model : CodeModel) : List Edge :=
  -- An enum may be used, but it is no supertype.
  edgesOf .uses (fun source target => target != source && model.isKnown target) model.uses ++
    edgesOf .inherits (fun _ target => model.classes.contains target) model.inherits ++
    edgesOf .implements (fun _ target => model.classes.contains target) model.implements

def lines (model : CodeModel) : List String :=
  header :: (model.enums.values.flatMap enumLines ++ model.classes.values.flatMap classLines ++
    (edges model).map Edge.line)

def render (model : CodeModel) : String :=
  Text.unlines (lines model)

end JavaDiagram.ClassDiagram
