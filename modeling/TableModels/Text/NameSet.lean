/-! # Sets of names

A finite set of names is the list of its members in increasing order, each once. -/

namespace TableModels.Text

/-- The set with one more name. -/
def insertName (name : String) : List String → List String
  | [] => [name]
  | first :: rest =>
      if name = first then first :: rest
      else if name < first then name :: first :: rest
      else first :: insertName name rest

/-- The set of the names of a list. -/
def nameSet (names : List String) : List String :=
  names.foldl (fun set name => insertName name set) []

/-- The set with the names of a list added. -/
def insertNames (names set : List String) : List String :=
  names.foldl (fun set name => insertName name set) set

theorem mem_insertName {name other : String} {set : List String} :
    other ∈ insertName name set ↔ other = name ∨ other ∈ set := by
  induction set with
  | nil => simp [insertName]
  | cons first rest ih =>
      simp only [insertName]
      split
      · rename_i h
        subst h
        simp
      · split
        · simp
        · simp only [List.mem_cons, ih]
          exact or_left_comm

theorem mem_insertNames {other : String} {names set : List String} :
    other ∈ insertNames names set ↔ other ∈ names ∨ other ∈ set := by
  induction names generalizing set with
  | nil => simp [insertNames]
  | cons name rest ih =>
      simp only [insertNames, List.foldl_cons] at ih ⊢
      rw [ih, mem_insertName, List.mem_cons]
      constructor
      · rintro (h | h | h)
        · exact Or.inl (Or.inr h)
        · exact Or.inl (Or.inl h)
        · exact Or.inr h
      · rintro ((h | h) | h)
        · exact Or.inr (Or.inl h)
        · exact Or.inl h
        · exact Or.inr (Or.inr h)

end TableModels.Text
