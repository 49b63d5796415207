import TableModels.Source.Declaration
import TableModels.Source.Dialect

/-! # What is extracted from a document

The outcome of scanning a source document, and the options that the scan obeys. -/

namespace TableModels

/-- The options of a scan. -/
structure ExtractionOptions where
  dialect : DialectChoice := .auto
  /-- Index sections are read. -/
  includeIndexes : Bool := true
  deriving DecidableEq

/-- The outcome of a scan: the tables in document order, and what could not be read. -/
structure Extraction where
  dialect : Dialect
  tables : List TableDeclaration
  skipped : List SkippedLine
  deriving DecidableEq

end TableModels
