import TableModels.Document.Emission
import TableModels.Enumeration.Declaration
import TableModels.Mapping.FieldMapping
import TableModels.Source.Extraction

/-! # Options of a conversion

Everything that a conversion run can be told, with the defaults. The excluded tables form a set of
names. -/

namespace TableModels

/-- The options of a conversion. -/
structure ConversionOptions where
  dialect : DialectChoice := .auto
  includeIndexes : Bool := true
  identity : IdentityPolicy := .uuid
  enumConflict : EnumConflictPolicy := .error
  /-- The audit fields are appended to every model. -/
  auditFields : Bool := true
  /-- The names bound to the tables that never become models, in increasing order. -/
  exclude : List String := []
  /-- The width of the column of field names in model blocks. -/
  columnWidth : Nat := 20
  header : Header := {}
  deriving DecidableEq

/-- The options of the scan that a conversion begins with. -/
def ConversionOptions.extraction (options : ConversionOptions) : ExtractionOptions :=
  ⟨options.dialect, options.includeIndexes⟩

end TableModels
