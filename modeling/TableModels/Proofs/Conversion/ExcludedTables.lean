import TableModels.Proofs.Conversion.Run

/-!
# Conversions do not look into excluded tables

Two extractions with the same names in the same order, which agree on every table that is kept, are
converted to the same end: to one conversion, or to one error. What a table holds can reach a
conversion by the registry, by the models and by the report, and each of these is told by the
outcomes of the tables.
-/

namespace TableModels.Conversion

/-- Two tables go by one name, and they are the same unless that name is excluded. -/
structure AgreeUnlessExcluded (options : ConversionOptions) (table other : TableDeclaration) :
    Prop where
  ident : table.ident = other.ident
  kept : options.exclude.contains table.ident = false → table = other

variable {options : ConversionOptions} {dialect : Dialect}

/-- The outcome of a table and what it leaves in the registry are told by its name if the table is
excluded. -/
theorem tableOutcome_eq_of_agree {table other : TableDeclaration}
    (h : AgreeUnlessExcluded options table other) (registry : EnumRegistry) :
    tableOutcome options dialect registry table = tableOutcome options dialect registry other := by
  cases hexcluded : options.exclude.contains table.ident with
  | false => rw [h.kept hexcluded]
  | true =>
      have hother : options.exclude.contains other.ident = true := h.ident ▸ hexcluded
      calc
        tableOutcome options dialect registry table
            = .ok (.excluded table.ident, registry) := if_pos hexcluded
        _ = .ok (.excluded other.ident, registry) := by rw [h.ident]
        _ = tableOutcome options dialect registry other := (if_pos hother).symm

/-- Table by table the same outcomes are reached with the same registry. -/
theorem tableOutcomes_eq_of_agree {tables others : List TableDeclaration}
    (h : List.Forall₂ (AgreeUnlessExcluded options) tables others) (registry : EnumRegistry) :
    tableOutcomes options dialect registry tables =
      tableOutcomes options dialect registry others := by
  induction h generalizing registry with
  | nil => rfl
  | cons htable _ ih => simp only [tableOutcomes, tableOutcome_eq_of_agree htable, ih]

/-- What an excluded table holds makes no difference to a conversion, be it to its document, to its
report or to the error that ends it. -/
theorem ofExtraction_eq_of_agree {tables others : List TableDeclaration}
    (h : List.Forall₂ (AgreeUnlessExcluded options) tables others) (skipped : List SkippedLine) :
    ofExtraction options ⟨dialect, tables, skipped⟩ =
      ofExtraction options ⟨dialect, others, skipped⟩ := by
  -- beyond the outcomes, only the dialect and the skipped lines are asked for
  simp only [ofExtraction, ofOutcomes, tableOutcomes_eq_of_agree h]

/-- A table of members whose column `kind` is an enumeration of the given values. -/
def memberTable (values : String) : TableDeclaration where
  ident := "members"
  tableName := "members"
  line := 1
  fields := [⟨"kind", "mysqlEnum(\"kind\", [" ++ values ++ "])", 1⟩]
  indexBlock := none
  indexDescriptors := []

/-- A table of archived members, which is like the table of members but for its indexes. -/
def archiveTable (values : String) (descriptors : List String) : TableDeclaration :=
  { memberTable values with
    ident := "archive"
    tableName := "archive"
    indexDescriptors := descriptors }

/-- An archive with other values for the enumeration and with an index of a missing column makes a
conversion fail; but once it is excluded it makes no difference. -/
theorem ofExtraction_eq_of_agree_archive :
    List.Forall₂ (AgreeUnlessExcluded { exclude := ["archive"] })
        [memberTable "\"a\"", archiveTable "\"a\"" []]
        [memberTable "\"a\"", archiveTable "\"b\"" ["index(\"gone\").on(t.gone)"]] ∧
      ofExtraction {}
          ⟨.mysql, [memberTable "\"a\"", archiveTable "\"a\"" []], []⟩ ≠
        ofExtraction {}
          ⟨.mysql, [memberTable "\"a\"", archiveTable "\"b\"" ["index(\"gone\").on(t.gone)"]],
            []⟩ ∧
      ofExtraction { exclude := ["archive"] }
          ⟨.mysql, [memberTable "\"a\"", archiveTable "\"a\"" []], []⟩ =
        ofExtraction { exclude := ["archive"] }
          ⟨.mysql, [memberTable "\"a\"", archiveTable "\"b\"" ["index(\"gone\").on(t.gone)"]],
            []⟩ := by
  have hagree : List.Forall₂ (AgreeUnlessExcluded { exclude := ["archive"] })
      [memberTable "\"a\"", archiveTable "\"a\"" []]
      [memberTable "\"a\"", archiveTable "\"b\"" ["index(\"gone\").on(t.gone)"]] :=
    .cons ⟨rfl, fun _ => rfl⟩ (.cons ⟨rfl, fun h => by cases h⟩ .nil)
  exact ⟨hagree, by decide +kernel, ofExtraction_eq_of_agree hagree []⟩

end TableModels.Conversion
