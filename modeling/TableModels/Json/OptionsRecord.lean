import TableModels.Conversion.Options
import TableModels.Json.Value
import TableModels.Text.NameSet

/-! # Options as JSON

Writing the options of a conversion as JSON values and reading them back. Every option has a
default, which it takes when its field is absent. -/

namespace TableModels

namespace DialectChoice

/-- The name of a choice. -/
def tag : DialectChoice → String
  | auto => "auto"
  | mysql => "mysql"
  | pg => "pg"

/-- The choice of a name. -/
def ofTag? : String → Option DialectChoice
  | "auto" => some auto
  | "mysql" => some mysql
  | "pg" => some pg
  | _ => none

end DialectChoice

namespace IdentityPolicy

/-- The name of a policy. -/
def tag : IdentityPolicy → String
  | uuid => "uuid"
  | preserve => "preserve"

/-- The policy of a name. -/
def ofTag? : String → Option IdentityPolicy
  | "uuid" => some uuid
  | "preserve" => some preserve
  | _ => none

end IdentityPolicy

namespace EnumConflictPolicy

/-- The name of a policy. -/
def tag : EnumConflictPolicy → String
  | error => "error"
  | firstWins => "first_wins"

/-- The policy of a name. -/
def ofTag? : String → Option EnumConflictPolicy
  | "error" => some error
  | "first_wins" => some firstWins
  | _ => none

end EnumConflictPolicy

namespace Header

/-- The value of the header settings. -/
def toJson (header : Header) : Json :=
  .object [
    ("title", .string header.title),
    ("run_label", .string header.runLabel),
    ("client_provider", .string header.clientProvider),
    ("provider", .string header.provider),
    ("url_env", .string header.urlEnv)]

/-- Read header settings. -/
def ofJson? (json : Json) : Option Header := do
  let base : Header := {}
  match ← json.partialRecord?
      ["title", "run_label", "client_provider", "provider", "url_env"] with
  | [title, runLabel, clientProvider, provider, urlEnv] =>
      let title ← Json.fieldOr base.title Json.string? title
      let runLabel ← Json.fieldOr base.runLabel Json.string? runLabel
      let clientProvider ← Json.fieldOr base.clientProvider Json.string? clientProvider
      let provider ← Json.fieldOr base.provider Json.string? provider
      let urlEnv ← Json.fieldOr base.urlEnv Json.string? urlEnv
      return { title, runLabel, clientProvider, provider, urlEnv }
  | _ => none

end Header

namespace ExtractionOptions

/-- Read the options of a scan. -/
def ofJson? (json : Json) : Option ExtractionOptions := do
  let base : ExtractionOptions := {}
  match ← json.partialRecord? ["dialect", "include_indexes"] with
  | [dialect, includeIndexes] =>
      let dialect ← Json.fieldOr base.dialect (Json.choice? DialectChoice.ofTag?) dialect
      let includeIndexes ← Json.fieldOr base.includeIndexes Json.bool? includeIndexes
      return { dialect, includeIndexes }
  | _ => none

end ExtractionOptions

namespace ConversionOptions

/-- The value of the options. -/
def toJson (options : ConversionOptions) : Json :=
  .object [
    ("dialect", .string options.dialect.tag),
    ("include_indexes", .bool options.includeIndexes),
    ("identity", .string options.identity.tag),
    ("enum_conflict", .string options.enumConflict.tag),
    ("audit_fields", .bool options.auditFields),
    ("exclude", .ofStrings options.exclude),
    ("column_width", .ofNat options.columnWidth),
    ("header", options.header.toJson)]

/-- The names of the options. -/
def fieldNames : List String := [
  "dialect", "include_indexes", "identity", "enum_conflict", "audit_fields", "exclude",
  "column_width", "header"]

/-- Read options. -/
def ofJson? (json : Json) : Option ConversionOptions := do
  let base : ConversionOptions := {}
  match ← json.partialRecord? fieldNames with
  | [dialect, includeIndexes, identity, enumConflict, auditFields, exclude, columnWidth, header] =>
      let dialect ← Json.fieldOr base.dialect (Json.choice? DialectChoice.ofTag?) dialect
      let includeIndexes ← Json.fieldOr base.includeIndexes Json.bool? includeIndexes
      let identity ← Json.fieldOr base.identity (Json.choice? IdentityPolicy.ofTag?) identity
      let enumConflict ←
        Json.fieldOr base.enumConflict (Json.choice? EnumConflictPolicy.ofTag?) enumConflict
      let auditFields ← Json.fieldOr base.auditFields Json.bool? auditFields
      let exclude ← Json.fieldOr base.exclude (fun json => json.strings?.map Text.nameSet) exclude
      let columnWidth ← Json.fieldOr base.columnWidth Json.count? columnWidth
      let header ← Json.fieldOr base.header Header.ofJson? header
      return {
        dialect, includeIndexes, identity, enumConflict, auditFields, exclude, columnWidth, header }
  | _ => none

end ConversionOptions

end TableModels
