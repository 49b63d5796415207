/-! # Quoted literals of the target document

A string is written between double quotes, and a backslash stands before each backslash and each
double quote that belongs to the string. Reading from behind the opening quote stops at the first
double quote that no backslash precedes; it gives back the string that was written and what
follows the literal. -/

namespace TableModels.Text.QuotedLiteral

/-- The text of a string between its quotes: a backslash stands before a backslash or a quote. -/
def escape : List Char → List Char
  | [] => []
  | c :: rest => if c = '\\' ∨ c = '"' then '\\' :: c :: escape rest else c :: escape rest

/-- The string that stands between the opening quote, which has been read, and the closing quote,
with the text behind it. -/
def read : List Char → Option (List Char × List Char)
  | [] => none
  | '"' :: rest => some ([], rest)
  | '\\' :: c :: rest => (read rest).map fun (value, later) => (c :: value, later)
  | c :: rest => (read rest).map fun (value, later) => (c :: value, later)

theorem read_escape (value later : List Char) :
    read (escape value ++ '"' :: later) = some (value, later) := by
  induction value with
  | nil => simp [escape, read]
  | cons c rest ih =>
      by_cases h : c = '\\' ∨ c = '"'
      · simp [escape, h, read, ih]
      · have hslash : c ≠ '\\' := fun e => h (Or.inl e)
        have hquote : c ≠ '"' := fun e => h (Or.inr e)
        simp only [escape, h, ↓reduceIte, List.cons_append]
        rw [read]
        · simp [ih]
        · exact hquote
        · intro d later' e
          exact absurd e hslash

/-- A string as it is written in the target document, quotes included. -/
def write (value : String) : String :=
  "\"" ++ String.ofList (escape value.toList) ++ "\""

/-- The text of a string in which only the quotes are marked: a backslash stands before a quote and
every other character stands for itself. -/
def escapeQuotes : List Char → List Char
  | [] => []
  | c :: rest => if c = '"' then '\\' :: c :: escapeQuotes rest else c :: escapeQuotes rest

end TableModels.Text.QuotedLiteral
