import TableModels.Enumeration.Declaration
import TableModels.Json.Value
import TableModels.Model.Declaration

/-! # Models as JSON

Writing enumerations, fields, indexes and models as JSON values and reading them back. Types and
attributes are tagged variants; the others are records. -/

namespace TableModels

namespace TargetType

/-- The value of a type. -/
def toJson : TargetType → Json
  | int => .tag "int"
  | bigInt => .tag "big_int"
  | string => .tag "string"
  | boolean => .tag "boolean"
  | decimal => .tag "decimal"
  | json => .tag "json"
  | dateTime => .tag "date_time"
  | enumeration name => .tagged "enum" (.string name)
  | unmapped raw => .tagged "unmapped" (.object [("raw", .string raw)])

/-- The type of a tag and its content. -/
def ofVariant? (kind : String) (content : Option Json) : Option TargetType :=
  match kind with
  | "int" => if Json.isUnit content then some int else none
  | "big_int" => if Json.isUnit content then some bigInt else none
  | "string" => if Json.isUnit content then some string else none
  | "boolean" => if Json.isUnit content then some boolean else none
  | "decimal" => if Json.isUnit content then some decimal else none
  | "json" => if Json.isUnit content then some json else none
  | "date_time" => if Json.isUnit content then some dateTime else none
  | "enum" => (content.bind Json.string?).map enumeration
  | "unmapped" =>
      match content.bind (Json.record? ["raw"]) with
      | some [raw] => (raw.bind Json.string?).map unmapped
      | _ => none
  | _ => none

/-- Read a type. -/
def ofJson? (json : Json) : Option TargetType :=
  json.variant?.bind fun (kind, content) => ofVariant? kind content

end TargetType

namespace Attribute

/-- The value of an attribute. -/
def toJson : Attribute → Json
  | id => .tag "id"
  | defaultAutoincrement => .tag "default_autoincrement"
  | defaultUuid => .tag "default_uuid"
  | defaultInt literal => .tagged "default_int" (.string literal)
  | defaultString value => .tagged "default_string" (.string value)
  | defaultBool value => .tagged "default_bool" (.bool value)
  | defaultDecimal literal => .tagged "default_decimal" (.string literal)
  | defaultEnum member => .tagged "default_enum" (.string member)
  | defaultNow => .tag "default_now"
  | defaultNowUpdatedAt => .tag "default_now_updated_at"
  | updatedAt => .tag "updated_at"
  | unique => .tag "unique"
  | varChar length => .tagged "var_char" (.ofNat length.toNat)
  | char length => .tagged "char" (.ofNat length.toNat)
  | decimalPrecision precision scale =>
      .tagged "decimal_precision" (.array [.ofNat precision.toNat, .ofNat scale.toNat])
  | uuid => .tag "uuid"
  | map column => .tagged "map" (.string column)

/-- The precision and scale given as content. -/
def precisionAndScale? : Json → Option Attribute
  | .array [precision, scale] =>
      match precision.uint32?, scale.uint32? with
      | some precision, some scale => some (decimalPrecision precision scale)
      | _, _ => none
  | _ => none

/-- The attribute of a tag and its content. -/
def ofVariant? (kind : String) (content : Option Json) : Option Attribute :=
  match kind with
  | "id" => if Json.isUnit content then some id else none
  | "default_autoincrement" => if Json.isUnit content then some defaultAutoincrement else none
  | "default_uuid" => if Json.isUnit content then some defaultUuid else none
  | "default_int" => (content.bind Json.string?).map defaultInt
  | "default_string" => (content.bind Json.string?).map defaultString
  | "default_bool" => (content.bind Json.bool?).map defaultBool
  | "default_decimal" => (content.bind Json.string?).map defaultDecimal
  | "default_enum" => (content.bind Json.string?).map defaultEnum
  | "default_now" => if Json.isUnit content then some defaultNow else none
  | "default_now_updated_at" => if Json.isUnit content then some defaultNowUpdatedAt else none
  | "updated_at" => if Json.isUnit content then some updatedAt else none
  | "unique" => if Json.isUnit content then some unique else none
  | "var_char" => (content.bind Json.uint32?).map varChar
  | "char" => (content.bind Json.uint32?).map char
  | "decimal_precision" => content.bind precisionAndScale?
  | "uuid" => if Json.isUnit content then some uuid else none
  | "map" => (content.bind Json.string?).map map
  | _ => none

/-- Read an attribute. -/
def ofJson? (json : Json) : Option Attribute :=
  json.variant?.bind fun (kind, content) => ofVariant? kind content

end Attribute

namespace MappedField

/-- The value of a field. -/
def toJson (field : MappedField) : Json :=
  .object [
    ("name", .string field.name),
    ("field_type", field.fieldType.toJson),
    ("attributes", .array (field.attributes.map Attribute.toJson)),
    ("optional", .bool field.isOptional)]

/-- Read a field. -/
def ofJson? (json : Json) : Option MappedField := do
  match ← json.record? ["name", "field_type", "attributes", "optional"] with
  | [name, fieldType, attributes, isOptional] =>
      let name ← name.bind Json.string?
      let fieldType ← fieldType.bind TargetType.ofJson?
      let attributes ← attributes.bind (Json.arrayOf? Attribute.ofJson?)
      let isOptional ← isOptional.bind Json.bool?
      return ⟨name, fieldType, attributes, isOptional⟩
  | _ => none

end MappedField

namespace IndexKind

/-- The name of a kind of index. -/
def tag : IndexKind → String
  | index => "index"
  | unique => "unique"

/-- The kind of index of a name. -/
def ofTag? : String → Option IndexKind
  | "index" => some index
  | "unique" => some unique
  | _ => none

end IndexKind

namespace IndexDeclaration

/-- The value of an index. -/
def toJson (index : IndexDeclaration) : Json :=
  .object [
    ("kind", .string index.kind.tag),
    ("name", .ofString? index.name),
    ("fields", .ofStrings index.fields)]

/-- Read an index. -/
def ofJson? (json : Json) : Option IndexDeclaration := do
  match ← json.record? ["kind", "name", "fields"] with
  | [kind, name, fields] =>
      let kind ← kind.bind (Json.choice? IndexKind.ofTag?)
      let name ← Json.nullableField? name
      let fields ← fields.bind Json.strings?
      return ⟨kind, name, fields⟩
  | _ => none

end IndexDeclaration

namespace ModelDeclaration

/-- The value of a model. -/
def toJson (model : ModelDeclaration) : Json :=
  .object [
    ("name", .string model.name),
    ("source_ident", .string model.sourceIdent),
    ("table_name", .string model.tableName),
    ("fields", .array (model.fields.map MappedField.toJson)),
    ("indexes", .array (model.indexes.map IndexDeclaration.toJson))]

/-- Read a model. -/
def ofJson? (json : Json) : Option ModelDeclaration := do
  match ← json.record? ["name", "source_ident", "table_name", "fields", "indexes"] with
  | [name, sourceIdent, tableName, fields, indexes] =>
      let name ← name.bind Json.string?
      let sourceIdent ← sourceIdent.bind Json.string?
      let tableName ← tableName.bind Json.string?
      let fields ← fields.bind (Json.arrayOf? MappedField.ofJson?)
      let indexes ← indexes.bind (Json.arrayOf? IndexDeclaration.ofJson?)
      return ⟨name, sourceIdent, tableName, fields, indexes⟩
  | _ => none

end ModelDeclaration

namespace EnumDeclaration

/-- The value of an enumeration. -/
def toJson (declaration : EnumDeclaration) : Json :=
  .object [("name", .string declaration.name), ("values", .ofStrings declaration.values)]

/-- Read an enumeration. -/
def ofJson? (json : Json) : Option EnumDeclaration := do
  match ← json.record? ["name", "values"] with
  | [name, values] =>
      let name ← name.bind Json.string?
      let values ← values.bind Json.strings?
      return ⟨name, values⟩
  | _ => none

end EnumDeclaration

namespace EnumConflict

/-- The value of a conflict between two definitions of an enumeration. -/
def toJson (conflict : EnumConflict) : Json :=
  .object [
    ("name", .string conflict.name),
    ("existing", .ofStrings conflict.existing),
    ("incoming", .ofStrings conflict.incoming)]

/-- Read a conflict between two definitions of an enumeration. -/
def ofJson? (json : Json) : Option EnumConflict := do
  match ← json.record? ["name", "existing", "incoming"] with
  | [name, existing, incoming] =>
      let name ← name.bind Json.string?
      let existing ← existing.bind Json.strings?
      let incoming ← incoming.bind Json.strings?
      return ⟨name, existing, incoming⟩
  | _ => none

end EnumConflict

end TableModels
