import TableModels.Model.Attribute
import TableModels.Model.TargetType

/-! # Target fields

A field has a name, a type and attributes, and it may be optional. An identity field, one with the
attribute `id`, is never made optional. -/

namespace TableModels

/-- A field of a target model. -/
structure MappedField where
  name : String
  fieldType : TargetType
  attributes : List Attribute
  isOptional : Bool
  deriving DecidableEq

namespace MappedField

/-- A required field without attributes. -/
def required (name : String) (fieldType : TargetType) : MappedField :=
  ⟨name, fieldType, [], false⟩

/-- The field with one more attribute, behind the others. -/
def withAttribute (field : MappedField) (added : Attribute) : MappedField :=
  { field with attributes := field.attributes ++ [added] }

/-- The field with one more attribute, when there is one. -/
def withAttribute? (field : MappedField) : Option Attribute → MappedField
  | some added => field.withAttribute added
  | none => field

/-- The field identifies the records of its model. -/
def isIdentity (field : MappedField) : Bool :=
  field.attributes.contains .id

/-- The field made optional, unless it is an identity field. -/
def asOptional (field : MappedField) : MappedField :=
  if field.isIdentity then field else { field with isOptional := true }

/-- The name of the type, followed by a question mark when the field is optional. -/
def typeExpression (field : MappedField) : String :=
  if field.isOptional then field.fieldType.name ++ "?" else field.fieldType.name

/-- The type expression followed by the attributes, separated by single spaces. -/
def definition (field : MappedField) : String :=
  String.intercalate " " (field.typeExpression :: field.attributes.map Attribute.render)

@[simp] theorem fieldType_withAttribute? (field : MappedField) (added : Option Attribute) :
    (field.withAttribute? added).fieldType = field.fieldType := by
  cases added <;> rfl

@[simp] theorem attributes_withAttribute? (field : MappedField) (added : Option Attribute) :
    (field.withAttribute? added).attributes = field.attributes ++ added.toList := by
  cases added with
  | none => exact (List.append_nil _).symm
  | some value => rfl

@[simp] theorem fieldType_asOptional (field : MappedField) :
    field.asOptional.fieldType = field.fieldType := by
  unfold asOptional
  split <;> rfl

@[simp] theorem attributes_asOptional (field : MappedField) :
    field.asOptional.attributes = field.attributes := by
  unfold asOptional
  split <;> rfl

theorem asOptional_of_isIdentity {field : MappedField} (h : field.isIdentity = true) :
    field.asOptional = field := by
  simp [asOptional, h]

end MappedField

end TableModels
