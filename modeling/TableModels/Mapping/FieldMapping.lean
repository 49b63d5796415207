import TableModels.Column.Reading
import TableModels.Enumeration.Registry
import TableModels.Mapping.Literal
import TableModels.Model.Field
import TableModels.Source.Declaration
import TableModels.Source.Dialect

/-! # Mapping fields

A field declaration becomes a target field. A primary key becomes an identity field, whose type the
identity policy decides; any other column is mapped by the family of its type call; a column that no
rule covers keeps its expression in an unmapped field. Mapping an enumeration column registers the
enumeration, and this is the only way in which mapping fails. -/

namespace TableModels

/-- How primary keys are typed. -/
inductive IdentityPolicy where
  /-- Only large integers that are incremented automatically keep their type. -/
  | uuid
  /-- All integers that are incremented automatically keep their type. -/
  | preserve
  deriving DecidableEq

namespace Mapping

open Column (Expression Value)

/-- The field of a primary key, from the family of its column and whether it is incremented
automatically. -/
def identityField (policy : IdentityPolicy) (name : String) (kind : Option ColumnKind)
    (autoincrement : Bool) : MappedField :=
  let keptType : Option TargetType :=
    match kind with
    | some .bigInt | some .bigSerial => if autoincrement then some .bigInt else none
    | some .integer | some .serial =>
        if autoincrement ∧ policy = .preserve then some .int else none
    | _ => none
  match keptType with
  | some type => ⟨name, type, [.id, .defaultAutoincrement], false⟩
  | none =>
      if kind = some .uuid then
        ⟨name, .string, [.id, .defaultUuid, .uuid], false⟩
      else
        ⟨name, .string, [.id, .defaultUuid], false⟩

/-- The field of a primary key column. -/
def primaryKeyField (policy : IdentityPolicy) (name : String) (kind : Option ColumnKind)
    (expr : Expression) : MappedField :=
  let autoincrement := expr.has "autoincrement" || kind.any ColumnKind.impliesAutoincrement
  identityField policy name kind autoincrement

/-- The default of an integer column that must not be null. -/
def integerDefault? (expr : Expression) : Option Attribute :=
  match expr.default? with
  | some (.number literal) =>
      if expr.has "notNull" ∧ isIntegerLiteral literal then some (.defaultInt literal) else none
  | _ => none

/-- The default of a text column of bounded length. -/
def stringDefault? (expr : Expression) : Option Attribute :=
  match expr.default? with
  | some (.string value) => some (.defaultString value)
  | some (.number literal) => some (.defaultString literal)
  | _ => none

/-- The default of a truth value. -/
def boolDefault? (expr : Expression) : Option Attribute :=
  match expr.default? with
  | some (.bool value) => some (.defaultBool value)
  | _ => none

/-- The default of a decimal column, given as a number or as a string. -/
def decimalDefault? (expr : Expression) : Option Attribute :=
  match expr.default? with
  | some (.string value) => if isDecimalLiteral value then some (.defaultDecimal value) else none
  | some (.number literal) =>
      if isDecimalLiteral literal then some (.defaultDecimal literal) else none
  | _ => none

/-- The unsigned integer under a key of the options of a column. -/
def uint32Option? (expr : Expression) (key : String) : Option UInt32 :=
  (expr.option? key).bind Value.uint32?

/-- The precision of a decimal column, with its scale, which is zero unless given. -/
def precision? (expr : Expression) : Option Attribute :=
  (uint32Option? expr "precision").map fun precision =>
    .decimalPrecision precision ((uint32Option? expr "scale").getD 0)

/-- What a time column says about the current time. -/
def timeAttribute? (expr : Expression) : Option Attribute :=
  let now := expr.has "defaultNow" || expr.default?.any isNowExpression
  let onUpdate := expr.has "onUpdateNow" || expr.has "$onUpdate" || expr.has "$onUpdateFn"
  match now, onUpdate with
  | true, true => some .defaultNowUpdatedAt
  | true, false => some .defaultNow
  | false, true => some .updatedAt
  | false, false => none

/-- The attribute, if the condition holds. -/
def attributeIf (condition : Bool) (added : Attribute) : Option Attribute :=
  if condition then some added else none

/-- The type and the attributes of a column that is neither a primary key nor an enumeration. -/
def scalarColumn? (kind : ColumnKind) (expr : Expression) :
    Option (TargetType × List (Option Attribute)) :=
  match kind with
  | .integer => some (.int, [integerDefault? expr])
  | .serial => some (.int, [some .defaultAutoincrement])
  | .bigInt => some (.bigInt, [])
  | .bigSerial => some (.bigInt, [some .defaultAutoincrement])
  | .varChar =>
      some (.string, [(uint32Option? expr "length").map .varChar, stringDefault? expr,
        attributeIf (expr.has "unique") .unique])
  | .char =>
      some (.string, [(uint32Option? expr "length").map .char, stringDefault? expr,
        attributeIf (expr.has "unique") .unique])
  | .text => some (.string, [])
  | .boolean => some (.boolean, [boolDefault? expr])
  | .decimal => some (.decimal, [precision? expr, decimalDefault? expr])
  | .json => some (.json, [])
  | .timestamp => some (.dateTime, [timeAttribute? expr])
  | .uuid =>
      some (.string, [some .uuid, attributeIf (expr.has "defaultRandom") .defaultUuid])
  | .enumeration => none

/-- The strings of a list of values, if all of them are strings. -/
def allStrings? (values : List Value) : Option (List String) :=
  values.mapM Value.string?

/-- The name and the values that an enumeration column declares. -/
def declaredEnum? (expr : Expression) : Option (String × List String) :=
  match expr.columnName?, expr.base.args with
  | some name, _ :: .array items :: _ =>
      match allStrings? items with
      | some (first :: rest) => some (name, first :: rest)
      | _ => none
  | _, _ => none

/-- The default of an enumeration column, by its member name. -/
def enumDefault? (expr : Expression) : Option Attribute :=
  match expr.default? with
  | some (.string value) => some (.defaultEnum (memberName value))
  | _ => none

/-- The field of a column that no rule maps. -/
def unmappedField (name raw : String) : MappedField :=
  ⟨name, .unmapped raw, [], true⟩

/-- The attribute that keeps the name of a column which differs from the name of its field. -/
def columnMap? (name : String) (expr : Expression) : Option Attribute :=
  match expr.columnName? with
  | some column => if column = name then none else some (.map column)
  | none => none

/-- A field with the attributes that are present. -/
def fieldOf (name : String) (column : TargetType × List (Option Attribute)) : MappedField :=
  ⟨name, column.1, column.2.reduceOption, false⟩

/-- The field of a readable expression before its column name and its nullability are settled, with
the registry afterwards. -/
def coreField (dialect : Dialect) (policy : IdentityPolicy) (registry : EnumRegistry)
    (name raw : String) (expr : Expression) : Except ModelError (MappedField × EnumRegistry) :=
  let kind := dialect.columnKind? expr.base.name
  if expr.has "primaryKey" then
    .ok (primaryKeyField policy name kind expr, registry)
  else
    match kind with
    | none => .ok (unmappedField name raw, registry)
    | some .enumeration =>
        match declaredEnum? expr with
        | none => .ok (unmappedField name raw, registry)
        | some (enumName, values) =>
            match registry.register enumName values with
            | .error error => .error error
            | .ok (after, canonical) =>
                .ok (fieldOf name (.enumeration canonical, [enumDefault? expr]), after)
    | some kind =>
        match scalarColumn? kind expr with
        | some column => .ok (fieldOf name column, registry)
        | none => .ok (unmappedField name raw, registry)

/-- The field of a readable expression, with the registry afterwards. -/
def mapExpression (dialect : Dialect) (policy : IdentityPolicy) (registry : EnumRegistry)
    (name raw : String) (expr : Expression) : Except ModelError (MappedField × EnumRegistry) :=
  match coreField dialect policy registry name raw expr with
  | .error error => .error error
  | .ok (field, after) =>
      let named := field.withAttribute? (columnMap? name expr)
      .ok (if expr.has "notNull" then named else named.asOptional, after)

/-- The field of a declaration, with the registry afterwards. An expression that cannot be read is
kept in an unmapped field. -/
def mapField (dialect : Dialect) (policy : IdentityPolicy) (registry : EnumRegistry)
    (field : FieldDeclaration) : Except ModelError (MappedField × EnumRegistry) :=
  match Column.parse field.expression with
  | .error _ => .ok (unmappedField field.name field.expression, registry)
  | .ok expr => mapExpression dialect policy registry field.name field.expression expr

/-- The fields of a list of declarations, mapped in order from one registry to the next. -/
def mapFields (dialect : Dialect) (policy : IdentityPolicy) (registry : EnumRegistry) :
    List FieldDeclaration → Except ModelError (List MappedField × EnumRegistry)
  | [] => .ok ([], registry)
  | field :: rest =>
      match mapField dialect policy registry field with
      | .error error => .error error
      | .ok (mapped, after) =>
          match mapFields dialect policy after rest with
          | .error error => .error error
          | .ok (fields, last) => .ok (mapped :: fields, last)

end Mapping

end TableModels
