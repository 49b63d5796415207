import TableModels.Index.Descriptor
import TableModels.Model.AuditFields
import TableModels.Naming
import TableModels.Source.Declaration

/-! # Assembling models

The model of a table has its mapped fields, the audit fields if they are asked for, and the indexes
that its index descriptors declare. A descriptor that declares none is handed back. -/

namespace TableModels

/-- A model, with the index descriptors of its table that declare no index. -/
structure Assembled where
  model : ModelDeclaration
  unparsedIndexes : List String
  deriving DecidableEq

/-- The model of a table from its mapped fields. -/
def assemble (withAudit : Bool) (table : TableDeclaration) (fields : List MappedField) :
    Assembled where
  model :=
    { name := pascalCase table.ident
      sourceIdent := table.ident
      tableName := table.tableName
      fields := if withAudit then injectAuditFields fields else fields
      indexes := table.indexDescriptors.flatMap Index.indexesOf }
  unparsedIndexes := table.indexDescriptors.filter fun text => (Index.indexesOf text).isEmpty

end TableModels
