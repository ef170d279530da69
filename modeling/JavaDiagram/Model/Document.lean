import JavaDiagram.Json
import JavaDiagram.Model.FlowPattern
import JavaDiagram.Model.Ingest

/-!
# The model as a document

Every part of the model has a JSON form. Tables become objects in table order, enumerated values
become their names, and a report gives the messages of its errors.
-/

namespace JavaDiagram

namespace Json

def strings (items : List String) : Json :=
  .array (items.map .string)

/-- A string, or null. -/
def optional : Option String → Json
  | some s => .string s
  | none => .null

end Json

/-- A table as an object, with `f` for its values. -/
def Table.document {α : Type} (f : α → Json) (table : Table α) : Json :=
  .object (table.entries.map fun (key, value) => (key, f value))

def MethodKind.document : MethodKind → Json
  | .framework overridden =>
    .object [("kind", .string "framework"), ("overridden", .bool overridden)]
  | kind => .object [("kind", .string kind.name)]

def FieldEntity.document (field : FieldEntity) : Json :=
  .object [
    ("visibility", .string field.visibility.name),
    ("annotations", .strings field.annotations),
    ("type_name", .string field.typeName),
    ("name", .string field.name)]

def ParameterEntity.document (param : ParameterEntity) : Json :=
  .object [("type_name", .string param.typeName), ("name", .string param.name)]

def Member.document (member : Member) : Json :=
  .object [
    ("visibility", .string member.visibility.name),
    ("annotations", .strings member.annotations),
    ("return_type", .optional member.returnType),
    ("name", .string member.name),
    ("params", .array (member.params.map (·.document))),
    ("kind", (member.kind.map (·.document)).getD .null)]

def ClassEntity.document (entity : ClassEntity) : Json :=
  .object [
    ("name", .string entity.name),
    ("kind", .string entity.kind.name),
    ("annotations", .strings entity.annotations),
    ("comment", .string entity.comment),
    ("fields", .array (entity.fields.map (·.document))),
    ("constructors", .array (entity.constructors.map (·.document))),
    ("accessors", .array (entity.accessors.map (·.document))),
    ("user_methods", .array (entity.userMethods.map (·.document))),
    ("framework_methods", .array (entity.frameworkMethods.map (·.document)))]

def EnumEntity.document (entity : EnumEntity) : Json :=
  .object [("name", .string entity.name), ("constants", .strings entity.constants)]

def CallRecord.document (call : CallRecord) : Json :=
  .object [
    ("target", .string call.target),
    ("member", .string call.member),
    ("kind", .string call.kind.name),
    ("line", .number call.line)]

def MethodRecord.document (method : MethodRecord) : Json :=
  .object [
    ("owner", .string method.owner),
    ("name", .string method.name),
    ("return_type", .string method.returnType),
    ("param_types", .strings method.paramTypes),
    ("visibility", .string method.visibility.name),
    ("is_constructor", .bool method.isConstructor),
    ("is_static", .bool method.isStatic),
    ("flow_patterns", .strings (method.flowPatterns.map (·.name))),
    ("calls", .array (method.calls.map (·.document)))]

def CodeModel.document (model : CodeModel) : Json :=
  .object [
    ("classes", model.classes.document (·.document)),
    ("enums", model.enums.document (·.document)),
    ("uses", model.uses.document Json.strings),
    ("extends", model.inherits.document Json.strings),
    ("implements", model.implements.document Json.strings),
    ("methods", model.methods.document fun methods => .array (methods.map (·.document)))]

def IngestReport.document (report : IngestReport) : Json :=
  .object [
    ("origin", .string report.origin),
    ("ingested", .strings report.ingested),
    ("collisions", .strings report.collisions),
    ("errors", .strings (report.errors.map (·.message)))]

end JavaDiagram
