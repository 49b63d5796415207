import TableModels.Proofs.Enumeration.Agreement
import TableModels.Proofs.Naming.PlainWords
import TableModels.Proofs.Text.Splitting

/-!
# Canonical names

Pascal case leaves a name as it is when the name has one word and this word begins with a character
that is its own upper-case form. Every result of Pascal case is such a name, so a second application
changes nothing, and the registry finds an enumeration under the name that it has given it. Names
joined by a separator go over to the Pascal-case names one after the other.

## Implementation notes

Of upper-case forms only three facts are used: they are not empty, they bring in no separator, and
their first character is its own upper-case form. A form of several characters, such as `SS` of `ß`,
is not looked at behind its first character.
-/

namespace TableModels

/-- No separator comes in with an upper-case form. -/
theorem isWordSeparator_of_mem_uppercase {c d : Char} (hc : isWordSeparator c = false)
    (hd : d ∈ Unicode.uppercase c) : isWordSeparator d = false := by
  have hmark : ∀ mark, Unicode.IsMark mark → isWordSeparator mark = true → d ≠ mark := by
    rintro mark hmark hseparator rfl
    rw [Unicode.eq_of_mem_uppercase hmark hd, hc] at hseparator
    cases hseparator
  have hblank : Unicode.isWhitespace c = false := (Bool.or_eq_false_iff.1 hc).2
  simp only [isWordSeparator, Bool.or_eq_false_iff, beq_eq_false_iff_ne]
  exact ⟨⟨hmark '_' (by decide) (by decide), hmark '-' (by decide) (by decide)⟩,
    Unicode.isWhitespace_of_mem_uppercase hblank hd⟩

/-- A text that Pascal case leaves as it is. -/
structure IsCanonical (text : List Char) : Prop where
  oneWord : ∀ c ∈ text, isWordSeparator c = false
  capital : ∀ c ∈ text.head?, Unicode.uppercase c = [c]

theorem isWordSeparator_of_mem_capitalizedWords {text : List Char} {c : Char}
    (h : c ∈ capitalizedWords text) : isWordSeparator c = false := by
  obtain ⟨word, hword, hmem⟩ := List.mem_flatMap.1 h
  have hplain := Text.separates_eq_false_of_mem_split hword
  cases word with
  | nil => cases hmem
  | cons first rest =>
      rw [List.forall_mem_cons] at hplain
      obtain hfirst | hrest := List.mem_append.1 hmem
      · exact isWordSeparator_of_mem_uppercase hplain.1 hfirst
      · exact hplain.2 c hrest

theorem isCanonical_capitalizedWords (text : List Char) : IsCanonical (capitalizedWords text) where
  oneWord := fun _ => isWordSeparator_of_mem_capitalizedWords
  capital := by
    intro c hc
    cases hwords : firstOfWords? text with
    | none =>
        rw [capitalizedWords_of_none hwords] at hc
        cases hc
    | some d =>
        obtain ⟨rest, hbegins⟩ := exists_capitalizedWords_of_some hwords
        obtain ⟨first, behind, hupper⟩ := List.exists_cons_of_ne_nil (Unicode.uppercase_ne_nil d)
        rw [hbegins, hupper] at hc
        cases hc
        exact Unicode.uppercase_of_uppercase_eq_cons hupper

/-- Pascal case leaves the canonical texts as they are, and no others. -/
theorem capitalizedWords_eq_self_iff {text : List Char} :
    capitalizedWords text = text ↔ IsCanonical text := by
  constructor
  · intro h
    rw [← h]
    exact isCanonical_capitalizedWords text
  · rintro ⟨honeWord, hcapital⟩
    rw [capitalizedWords, Text.split_of_forall_eq_false honeWord, List.flatMap_singleton]
    cases text with
    | nil => rfl
    | cons c rest => rw [capitalized, hcapital c rfl, List.singleton_append]

theorem pascalCase_pascalCase (name : String) : pascalCase (pascalCase name) = pascalCase name := by
  rw [← String.toList_inj, toList_pascalCase, toList_pascalCase, capitalizedWords_eq_self_iff]
  exact isCanonical_capitalizedWords name.toList

/-- The words on both sides of a separator are capitalized apart from each other. -/
theorem capitalizedWords_append {c : Char} (h : isWordSeparator c = true)
    (text rest : List Char) :
    capitalizedWords (text ++ c :: rest) = capitalizedWords text ++ capitalizedWords rest := by
  rw [capitalizedWords, Text.split_append h, List.flatMap_append]
  rfl

theorem pascalCase_append {c : Char} (h : isWordSeparator c = true) (first second : String) :
    pascalCase (first ++ String.singleton c ++ second) = pascalCase first ++ pascalCase second := by
  rw [← String.toList_inj, toList_pascalCase, String.toList_append, String.toList_append,
    String.toList_append, String.toList_singleton, List.append_assoc, List.singleton_append,
    capitalizedWords_append h, toList_pascalCase, toList_pascalCase]

/-! ### The canonical name of an enumeration -/

namespace EnumRegistry

/-- A name and its canonical form ask for the same. -/
theorem register_pascalCase (registry : EnumRegistry) (name : String) (values : List String) :
    registry.register (pascalCase name) values = registry.register name values := by
  simp only [register, pascalCase_pascalCase]

theorem find?_insert {declaration : EnumDeclaration} {entries : List EnumDeclaration}
    (hnew : declaration.name ∉ entries.map (·.name)) :
    (insert declaration entries).find? (·.name == declaration.name) = some declaration := by
  induction entries with
  | nil => simp [insert]
  | cons entry rest ih =>
      rw [List.map_cons, List.mem_cons, not_or] at hnew
      rw [insert]
      split
      · simp
      · rw [List.find?_cons_of_neg (by simpa using Ne.symm hnew.1)]
        exact ih hnew.2

/-- After a registration there is an entry under the canonical name, and it has the values unless a
conflict was set aside. -/
theorem Registers.exists_entry {registry after : EnumRegistry} {canonical : String}
    {incoming : List String} (h : Registers registry canonical incoming after) :
    ∃ entry, after.find? canonical = some entry ∧
      (entry.values = incoming ∨ after.policy = .firstWins) := by
  cases h with
  | @known existing hfind hvalues => exact ⟨existing, hfind, Or.inl hvalues⟩
  | @setAside existing hfind _ hpolicy => exact ⟨existing, hfind, Or.inr hpolicy⟩
  | added hfind _ =>
      have hnew : canonical ∉ registry.names := find?_eq_none_iff.1 hfind
      exact ⟨⟨canonical, incoming⟩, @find?_insert ⟨canonical, incoming⟩ _ hnew, Or.inl rfl⟩

/-- Registering values under a name reaches an entry: it answers the name of the entry, finds the
entry under it, and leaves the entries as they are. -/
def Reaches (registry : EnumRegistry) (name : String) (values : List String)
    (entry : EnumDeclaration) : Prop :=
  ∃ last, registry.register name values = .ok (last, entry.name) ∧
    last.find? entry.name = some entry ∧ last.entries = registry.entries

/-- A name with an entry reaches it, unless the policy refuses other values. -/
theorem reaches_iff_of_find? {registry : EnumRegistry} {name : String} {entry : EnumDeclaration}
    (hfind : registry.find? (pascalCase name) = some entry) {values : List String} :
    registry.Reaches name values entry ↔
      entry.values = EnumDeclaration.distinct values ∨ registry.policy = .firstWins := by
  obtain ⟨-, hname⟩ := find?_eq_some hfind
  rw [Reaches, hname]
  constructor
  · rintro ⟨last, hregister, -, -⟩
    obtain ⟨-, hstep⟩ := register_eq_ok_iff.1 hregister
    cases hstep with
    | known hknown hvalues =>
        cases hfind.symm.trans hknown
        exact Or.inl hvalues
    | setAside _ _ hpolicy => exact Or.inr hpolicy
    | added hnone _ => cases hfind.symm.trans hnone
  · intro h
    by_cases hvalues : entry.values = EnumDeclaration.distinct values
    · exact ⟨registry, register_eq_ok_iff.2 ⟨rfl, .known hfind hvalues⟩, hfind, rfl⟩
    · have hstep := Registers.setAside hfind hvalues (h.resolve_left hvalues)
      exact ⟨_, register_eq_ok_iff.2 ⟨rfl, hstep⟩, hfind, rfl⟩

/-- Whether Pascal case is applied once or twice is the same, it leaves no separator in a name, and
it goes through a name one part after the other. So the name that a registration answers is its own
canonical name: the same values reach the entry of that name, whatever the registry and its policy,
and so do all values that the policy does not refuse. -/
theorem canonical_names_kept :
    (∀ name : String, pascalCase (pascalCase name) = pascalCase name ∧
        ∀ c ∈ (pascalCase name).toList, isWordSeparator c = false) ∧
      (∀ (first second : String) (c : Char), isWordSeparator c = true →
        pascalCase (first ++ String.singleton c ++ second) =
          pascalCase first ++ pascalCase second) ∧
      ∀ (registry after : EnumRegistry) (name canonical : String) (values : List String),
        registry.register name values = .ok (after, canonical) →
          ∃ entry, entry.name = canonical ∧ after.find? canonical = some entry ∧
            after.Reaches canonical values entry ∧
            ∀ others, after.Reaches canonical others entry ↔
              entry.values = EnumDeclaration.distinct others ∨ after.policy = .firstWins := by
  refine ⟨?_, fun first second c h => pascalCase_append h first second, ?_⟩
  · intro name
    refine ⟨pascalCase_pascalCase name, fun c hc => ?_⟩
    rw [toList_pascalCase] at hc
    exact isWordSeparator_of_mem_capitalizedWords hc
  · intro registry after name canonical values hregister
    obtain ⟨rfl, hstep⟩ := register_eq_ok_iff.1 hregister
    obtain ⟨entry, hfind, hvalues⟩ := hstep.exists_entry
    obtain ⟨-, hname⟩ := find?_eq_some hfind
    have hreaches : ∀ others, after.Reaches (pascalCase name) others entry ↔
        entry.values = EnumDeclaration.distinct others ∨ after.policy = .firstWins := by
      intro others
      rw [Reaches, register_pascalCase]
      exact reaches_iff_of_find? hfind
    exact ⟨entry, hname, hfind, (hreaches values).2 hvalues, hreaches⟩

/-- The name begins with a character whose upper-case form has two characters, and the second values
are set aside as a conflict. They reach the entry with the first values under its canonical name. -/
theorem canonical_names_kept_sharp :
    ∃ before after, (empty .firstWins).register "ßa-kind" ["a"] = .ok (before, "SSaKind") ∧
      before.register "ßa kind" ["b"] = .ok (after, "SSaKind") ∧
      pascalCase ("ßa" ++ String.singleton ' ' ++ "kind") = pascalCase "ßa" ++ pascalCase "kind" ∧
      ∃ entry, after.find? "SSaKind" = some entry ∧ after.Reaches "SSaKind" ["b"] entry := by
  have hconflict : register ⟨.firstWins, [⟨"SSaKind", ["a"]⟩], []⟩ "ßa kind" ["b"] =
      .ok (⟨.firstWins, [⟨"SSaKind", ["a"]⟩], [⟨"SSaKind", ["a"], ["b"]⟩]⟩, "SSaKind") := by
    rfl
  refine ⟨_, _, by rfl, hconflict, ?_, ?_⟩
  · exact canonical_names_kept.2.1 "ßa" "kind" ' ' (by decide)
  · obtain ⟨entry, -, hfind, hreaches, -⟩ := canonical_names_kept.2.2 _ _ _ _ _ hconflict
    exact ⟨entry, hfind, hreaches⟩

end EnumRegistry

end TableModels
