import TableModels.Naming
import TableModels.Proofs.Unicode.CharacterClasses

/-!
# Marks in Pascal case

Pascal case changes letters and drops what separates words. Any other character of ASCII stands in
the result only if it stands in the name, for no upper-case form brings such a character in.
-/

namespace TableModels.Text

theorem mem_of_mem_split {separates : Char → Bool} {text piece : List Char}
    (h : piece ∈ split separates text) {c : Char} (hc : c ∈ piece) : c ∈ text := by
  induction text generalizing piece with
  | nil =>
      obtain rfl := List.mem_singleton.1 h
      exact hc
  | cons d rest ih =>
      simp only [split] at h
      split at h
      · obtain rfl | hrest := List.mem_cons.1 h
        · cases hc
        · exact List.mem_cons_of_mem _ (ih hrest hc)
      · split at h
        · rename_i hnil
          exact absurd hnil (split_ne_nil separates rest)
        · rename_i first others heq
          obtain rfl | hrest := List.mem_cons.1 h
          · obtain rfl | htail := List.mem_cons.1 hc
            · exact List.mem_cons_self
            · exact List.mem_cons_of_mem _ (ih (heq ▸ List.mem_cons_self) htail)
          · exact List.mem_cons_of_mem _ (ih (heq ▸ List.mem_cons_of_mem _ hrest) hc)

end TableModels.Text

namespace TableModels

/-- A mark in Pascal case stands in the name and separates no words there. -/
theorem mem_of_mem_pascalCase {name : String} {mark : Char} (hmark : Unicode.IsMark mark)
    (h : mark ∈ (pascalCase name).toList) :
    mark ∈ name.toList ∧ isWordSeparator mark = false := by
  rw [pascalCase, String.toList_ofList] at h
  obtain ⟨word, hword, hmem⟩ := List.mem_flatMap.1 h
  have hmember : mark ∈ word := by
    cases word with
    | nil => cases hmem
    | cons c rest =>
        obtain hfirst | hrest := List.mem_append.1 hmem
        · rw [Unicode.eq_of_mem_uppercase hmark hfirst]
          exact List.mem_cons_self
        · exact List.mem_cons_of_mem _ hrest
  exact ⟨Text.mem_of_mem_split hword hmember,
    Text.separates_eq_false_of_mem_split hword _ hmember⟩

end TableModels
