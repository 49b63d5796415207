/-! # Padding

Aligning a text in a column. Width is counted in characters, and a text that is wider than its
column is written in full. -/

namespace TableModels.Text

/-- The text followed by as many spaces as fill the column. -/
def padRight (width : Nat) (text : String) : String :=
  text ++ String.ofList (List.replicate (width - text.length) ' ')

/-- The text preceded by as many spaces as fill the column. -/
def padLeft (width : Nat) (text : String) : String :=
  String.ofList (List.replicate (width - text.length) ' ') ++ text

theorem length_padRight (width : Nat) (text : String) :
    (padRight width text).length = max width text.length := by
  simp [padRight]
  omega

theorem length_padLeft (width : Nat) (text : String) :
    (padLeft width text).length = max width text.length := by
  simp [padLeft]
  omega

end TableModels.Text
