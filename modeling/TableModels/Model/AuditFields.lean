import TableModels.Model.Field

/-! # Audit fields

Four conventional fields that record when and by whom a record was created and updated. Injection
appends those whose names are absent. -/

namespace TableModels

/-- The audit fields in the order of injection. -/
def auditFields : List MappedField := [
  (MappedField.required "createdAt" .dateTime).withAttribute .defaultNow,
  (MappedField.required "updatedAt" .dateTime).withAttribute .updatedAt,
  (MappedField.required "createdBy" .string).asOptional,
  (MappedField.required "updatedBy" .string).asOptional]

/-- The fields followed by the audit fields whose names are absent from them. -/
def injectAuditFields (fields : List MappedField) : List MappedField :=
  fields ++ auditFields.filter fun audit => !fields.any (·.name == audit.name)

theorem injectAuditFields_eq (fields : List MappedField) :
    injectAuditFields fields =
      fields ++ auditFields.filter fun audit => audit.name ∉ fields.map (·.name) := by
  refine congrArg (fields ++ ·) (List.filter_congr ?_)
  intro audit _
  rw [Bool.eq_iff_iff]
  simp

theorem auditFields_names :
    auditFields.map (·.name) = ["createdAt", "updatedAt", "createdBy", "updatedBy"] := rfl

end TableModels
