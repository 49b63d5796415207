import TableModels.Text.Pieces

/-! # Dialects of the source document

A dialect says which function declares a table and to which family a column call belongs. The
dialect may be chosen, or detected: a document that calls the table function of the second dialect
anywhere, comments and strings included, is of that dialect. -/

namespace TableModels

/-- The family of a column. -/
inductive ColumnKind where
  | integer
  | bigInt
  /-- An integer that is incremented automatically. -/
  | serial
  /-- A large integer that is incremented automatically. -/
  | bigSerial
  | varChar
  | char
  | text
  | boolean
  | decimal
  | json
  | timestamp
  | enumeration
  | uuid
  deriving DecidableEq

namespace ColumnKind

/-- The column holds large integers. -/
def isLargeInteger : ColumnKind → Bool
  | bigInt | bigSerial => true
  | _ => false

/-- The column is incremented automatically without being told so. -/
def impliesAutoincrement : ColumnKind → Bool
  | serial | bigSerial => true
  | _ => false

end ColumnKind

/-- A dialect of the source document. -/
inductive Dialect where
  | mysql
  | pg
  deriving DecidableEq

/-- The dialect that a run is asked to use. -/
inductive DialectChoice where
  /-- The dialect is detected in the document. -/
  | auto
  | mysql
  | pg
  deriving DecidableEq

namespace Dialect

/-- The name of a dialect in reports. -/
def name : Dialect → String
  | mysql => "mysql"
  | pg => "pg"

/-- The function that declares a table. -/
def tableConstructor : Dialect → String
  | mysql => "mysqlTable"
  | pg => "pgTable"

/-- The family of the column that a call of the first dialect declares. -/
def mysqlColumnKind? (call : String) : Option ColumnKind :=
  match call with
  | "int" | "tinyint" | "smallint" | "mediumint" => some .integer
  | "bigint" => some .bigInt
  | "serial" => some .bigSerial
  | "varchar" => some .varChar
  | "char" => some .char
  | "text" | "tinytext" | "mediumtext" | "longtext" => some .text
  | "boolean" => some .boolean
  | "decimal" => some .decimal
  | "json" => some .json
  | "timestamp" | "datetime" | "date" => some .timestamp
  | "mysqlEnum" => some .enumeration
  | _ => none

/-- The family of the column that a call of the second dialect declares. -/
def pgColumnKind? (call : String) : Option ColumnKind :=
  match call with
  | "integer" | "smallint" => some .integer
  | "bigint" => some .bigInt
  | "serial" | "smallserial" => some .serial
  | "bigserial" => some .bigSerial
  | "varchar" => some .varChar
  | "char" => some .char
  | "text" => some .text
  | "boolean" => some .boolean
  | "numeric" | "decimal" => some .decimal
  | "json" | "jsonb" => some .json
  | "timestamp" | "date" => some .timestamp
  | "uuid" => some .uuid
  | _ => none

/-- The family of the column that a call declares. -/
def columnKind? (dialect : Dialect) (call : String) : Option ColumnKind :=
  match dialect with
  | mysql => mysqlColumnKind? call
  | pg => pgColumnKind? call

end Dialect

/-- The dialect of a document under a choice. -/
def DialectChoice.resolve (choice : DialectChoice) (source : String) : Dialect :=
  match choice with
  | mysql => .mysql
  | pg => .pg
  | auto => if Text.includes source "pgTable(" then .pg else .mysql

end TableModels
