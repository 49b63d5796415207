import TableModels.Proofs.Script.StringLiterals
import TableModels.Proofs.Source.FieldNames
import TableModels.Proofs.Source.TableSites

/-!
# Names of tables

A table that is named by a string takes its name from the first fragment of the string. This is the
whole content of the string only if the string is a single fragment: whatever stands before an
escape sequence or behind one is lost with the escape sequence, and a string of escape sequences
names no table at all.
-/

namespace TableModels.Source

open Script (Tree Token TokenKind)

/-! ### Parts of a site -/

theorem isPart_of_mem_tableSites {dialect : Dialect} {tree : Tree} {site : Site}
    (h : site ∈ tableSites dialect tree) : site.declarator.IsPart tree := by
  have hsite := (Site.byDeclaration_perm tree).symm.mem_iff.1 (List.mem_of_mem_filter h)
  obtain ⟨declaration, hdeclaration, hmem⟩ := List.mem_flatMap.1 hsite
  obtain ⟨declarator, hdeclarator, rfl⟩ := List.mem_map.1 hmem
  have hchild := Tree.isPart_of_mem_children (List.mem_of_mem_filter hdeclarator)
  exact hchild.trans (Tree.isPart_of_mem_nodesOf hdeclaration)

theorem isPart_of_callOf? {function : String} {declarator call : Tree}
    (h : callOf? function declarator = some call) : call.IsPart declarator := by
  apply Tree.isPart_of_mem_children
  exact mem_children_of_declaratorValue? (Option.filter_eq_some_iff.1 h).1

theorem isPart_of_mem_argumentsOf {call argument : Tree} (h : argument ∈ argumentsOf call) :
    argument.IsPart call := by
  rw [argumentsOf] at h
  cases hlast : call.children.getLast? with
  | none => simp [hlast] at h
  | some arguments =>
      rw [hlast] at h
      have hargument : argument.IsPart arguments := Tree.isPart_of_mem_elements h
      exact hargument.trans (Tree.isPart_of_mem_children (List.mem_of_getLast? hlast))

/-! ### What a site is read from -/

variable {dialect : Dialect} {includeIndexes : Bool} {site : Site} {call literal body : Tree}
  {others : List Tree} {ident : String} {line : Nat} {reading : TableReading}

/-- A call that is not read as a table is skipped. -/
theorem readDeclarator?_of_callOf?
    (hcall : callOf? dialect.tableConstructor site.declarator = some call) :
    ∃ header, readDeclarator? dialect includeIndexes site.declaration site.declarator =
      some ((tableOf? includeIndexes site.ident site.declaration.line call).getD
        (.rejected ⟨site.ident, site.declaration.line, header⟩)) := by
  obtain ⟨name, hname⟩ := exists_head?_of_callOf? hcall
  have hident : site.ident = String.ofList name.text := by
    rw [Site.ident, hname]
    rfl
  rw [readDeclarator?, hcall, hname, hident]
  dsimp only
  cases tableOf? includeIndexes (String.ofList name.text) site.declaration.line call with
  | none => exact ⟨_, rfl⟩
  | some found => exact ⟨"", rfl⟩

/-- A table has the text of the first argument for its name. -/
theorem literalText?_of_tableOf? (h : tableOf? includeIndexes ident line call = some reading)
    (harguments : argumentsOf call = literal :: others) :
    ∃ declaration skipped, reading = .table declaration skipped ∧
      literalText? literal = some declaration.tableName.toList := by
  unfold tableOf? at h
  split_ifs at h
  split at h
  · rename_i first body rest hgiven
    obtain rfl := (List.cons.inj (harguments.symm.trans hgiven)).1
    split at h
    · rename_i name hname _
      cases h
      exact ⟨_, _, rfl, by rw [hname, String.toList_ofList]⟩
    · cases h
  · cases h

theorem isSome_tableOf? (hwhole : call.isDamaged = false)
    (harguments : argumentsOf call = literal :: body :: others)
    (hbody : body.isKind .object = true) :
    (tableOf? includeIndexes ident line call).isSome = (literalText? literal).isSome := by
  unfold tableOf?
  rw [argumentsOf] at harguments
  rw [hwhole, harguments, if_neg Bool.false_ne_true]
  dsimp only
  rw [hbody]
  cases literalText? literal <;> rfl

theorem isSome_table?_tableOf? (skipped : SkippedLine) :
    ((tableOf? includeIndexes ident line call).getD (.rejected skipped)).table?.isSome =
      (tableOf? includeIndexes ident line call).isSome := by
  cases htable : tableOf? includeIndexes ident line call with
  | none => rfl
  | some found =>
      obtain ⟨_, _, _, rfl, -⟩ := exists_of_tableOf? htable
      rfl

/-! ### Names given by strings -/

variable {pieces : List Token}

/-- A string names a table by its first fragment. -/
theorem literalText?_of_isString (hkind : literal.isKind .string = true)
    (h : literal.IsString pieces) :
    literalText? literal = (pieces.find? (·.kind == .fragment)).map Token.text := by
  obtain ⟨opening, closing, -, -, hchildren, -⟩ := h.shape
  have hstring : literal.kind? = some .string := eq_of_beq hkind
  have hfragment : ∀ piece, (Tree.ofPiece piece).isKind .fragment = (piece.kind == .fragment) := by
    intro piece
    cases hpiece : piece.kind == .fragment <;> simp [Tree.ofPiece, Tree.isKind, Tree.kind?, hpiece]
  have hfind : literal.children.find? (·.isKind .fragment) =
      (pieces.find? (·.kind == .fragment)).map .ofPiece := by
    rw [hchildren, List.find?_cons_of_neg (by simp [Tree.isKind, Tree.kind?]), List.find?_append,
      List.find?_map, List.find?_singleton, if_neg (by simp [Tree.isKind, Tree.kind?]),
      Option.or_none]
    simp only [Function.comp_def, hfragment]
  have htext : ∀ piece, (Tree.ofPiece piece).text = piece.text := by
    intro piece
    simp [Tree.ofPiece, Tree.text, Tree.tokens, Tree.tokensOfAll, Script.verbatim]
  unfold literalText?
  rw [hstring]
  dsimp only
  rw [hfind]
  cases hfirst : pieces.find? (·.kind == .fragment) with
  | none => rfl
  | some fragment =>
      have hne := h.nonempty fragment (List.mem_of_find?_eq_some hfirst)
      simpa [htext] using hne

/-- The fragment is the first among the pieces: only escape sequences stand before it. -/
structure IsFirstFragment (fragment : Token) (front pieces back : List Token) : Prop where
  cut : pieces = front ++ fragment :: back
  fragment : fragment.kind = .fragment
  escapes : ∀ piece ∈ front, piece.kind = .escape

theorem exists_isFirstFragment (h : literal.IsString pieces) {fragment : Token}
    (hfirst : pieces.find? (·.kind == .fragment) = some fragment) :
    ∃ front back, IsFirstFragment fragment front pieces back := by
  obtain ⟨hkind, front, back, hcut, hfront⟩ := List.find?_eq_some_iff_append.1 hfirst
  refine ⟨front, back, hcut, eq_of_beq hkind, ?_⟩
  intro piece hpiece
  have hpieces := h.kinds piece (hcut ▸ List.mem_append_left _ hpiece)
  apply (Script.TokenKind.isPiece_eq_true_iff.1 hpieces).resolve_left
  simpa using hfront piece hpiece

/-- The first fragment is all that the string contains when it is the only piece. -/
theorem IsFirstFragment.text_eq_iff {fragment : Token} {front back : List Token}
    (h : IsFirstFragment fragment front pieces back) (hstring : literal.IsString pieces) :
    fragment.text = pieces.flatMap Token.text ↔ pieces = [fragment] := by
  have hempty : ∀ part : List Token, part ⊆ pieces → part.flatMap Token.text = [] → part = [] := by
    intro part hpart htext
    rw [List.flatMap_eq_nil_iff] at htext
    apply List.eq_nil_iff_forall_not_mem.2
    intro piece hpiece
    exact hstring.nonempty piece (hpart hpiece) (htext piece hpiece)
  constructor
  · intro htext
    have hlength := congrArg List.length htext
    rw [h.cut, List.flatMap_append, List.flatMap_cons, List.length_append, List.length_append]
      at hlength
    have hfront : front = [] := by
      apply hempty front (h.cut ▸ List.subset_append_left _ _)
      apply List.eq_nil_of_length_eq_zero
      omega
    have hback : back = [] := by
      apply hempty back
      · rw [h.cut]
        exact fun piece hpiece => List.mem_append_right _ (List.mem_cons_of_mem _ hpiece)
      · apply List.eq_nil_of_length_eq_zero
        omega
    rw [h.cut, hfront, hback, List.nil_append]
  · rintro rfl
    rw [List.flatMap_singleton]

/-- What becomes of a site whose call begins with a string of the given pieces: a table is named by
the first fragment, which is the whole content only if it is the only piece, and a call that is
otherwise in order is read if there is a fragment, and skipped if there is none. -/
structure NamedByString (extraction : Extraction) (call : Tree) (others : List Tree)
    (pieces : List Token) (reading : TableReading) : Prop where
  extracted : ∀ declaration ∈ reading.table?, declaration ∈ extraction.tables
  skipped : ∀ line ∈ reading.skipped, line ∈ extraction.skipped
  named : ∀ declaration ∈ reading.table?, ∃ fragment front back,
    IsFirstFragment fragment front pieces back ∧ declaration.tableName.toList = fragment.text ∧
      (declaration.tableName.toList = pieces.flatMap Token.text ↔ pieces = [fragment])
  isTable : call.isDamaged = false → others.head?.any (·.isKind .object) = true →
    (reading.table?.isSome = true ↔ ∃ piece ∈ pieces, piece.kind = .fragment)

/-- The first argument of a site, when it is a string, has pieces. -/
theorem exists_isString_of_mem_tableSites {text : List Char}
    (hsite : site ∈ tableSites dialect (Script.parse text))
    (hcall : callOf? dialect.tableConstructor site.declarator = some call)
    (harguments : argumentsOf call = literal :: others) (hkind : literal.isKind .string = true) :
    ∃ pieces, literal.IsString pieces := by
  have hliteral : literal.IsPart call := by
    apply isPart_of_mem_argumentsOf
    rw [harguments]
    exact List.mem_cons_self
  apply Script.exists_isString_of_isPart_parse hkind
  exact hliteral.trans ((isPart_of_callOf? hcall).trans (isPart_of_mem_tableSites hsite))

theorem mem_readTree_of_mem_tableSites {tree : Tree} (hsite : site ∈ tableSites dialect tree)
    (hread : readDeclarator? dialect includeIndexes site.declaration site.declarator =
      some reading) : reading ∈ readTree dialect includeIndexes tree := by
  rw [readTree_eq]
  apply List.mem_filterMap.2
  refine ⟨site, ?_, hread⟩
  exact (Site.byDeclaration_perm tree).symm.mem_iff.1 (List.mem_of_mem_filter hsite)

/-- A table that is read goes by the first fragment of its string. -/
theorem exists_isFirstFragment_of_tableOf?
    (h : tableOf? includeIndexes ident line call = some reading)
    (harguments : argumentsOf call = literal :: others) (hkind : literal.isKind .string = true)
    (hpieces : literal.IsString pieces) :
    ∃ declaration skipped fragment front back, reading = .table declaration skipped ∧
      IsFirstFragment fragment front pieces back ∧
      declaration.tableName.toList = fragment.text := by
  obtain ⟨declaration, skipped, rfl, hname⟩ := literalText?_of_tableOf? h harguments
  rw [literalText?_of_isString hkind hpieces] at hname
  obtain ⟨fragment, hfirst, hfragment⟩ := Option.map_eq_some_iff.1 hname
  obtain ⟨front, back, hcut⟩ := exists_isFirstFragment hpieces hfirst
  exact ⟨declaration, skipped, fragment, front, back, rfl, hcut, hfragment.symm⟩

/-- A call that is otherwise in order is read when its string has a fragment. -/
theorem isSome_tableOf?_iff (hwhole : call.isDamaged = false)
    (harguments : argumentsOf call = literal :: others) (hkind : literal.isKind .string = true)
    (hpieces : literal.IsString pieces) (hobject : others.head?.any (·.isKind .object) = true) :
    (tableOf? includeIndexes ident line call).isSome = true ↔
      ∃ piece ∈ pieces, piece.kind = .fragment := by
  cases others with
  | nil => cases hobject
  | cons body rest =>
      rw [isSome_tableOf? hwhole harguments hobject, literalText?_of_isString hkind hpieces,
        Option.isSome_map, List.find?_isSome]
      simp only [beq_iff_eq]

/-- A table whose name has a quote in the middle. -/
def quotedNameSource : String :=
  "const users = mysqlTable(\"us\\\"ers\", \x7b id: int() \x7d);"

/-- A table whose name is written as an escape sequence. -/
def escapedNameSource : String :=
  "const users = mysqlTable(\"\\u0075\", \x7b id: int() \x7d);"

end TableModels.Source
