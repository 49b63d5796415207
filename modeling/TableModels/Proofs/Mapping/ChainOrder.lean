import TableModels.Proofs.ExceptResult
import TableModels.Proofs.Mapping.FieldRequests

/-!
# The order of chained calls

Mapping asks a chain which of a few calls occur in it, and for the first argument of the first
default. Nothing else about a chain is read, neither where a call stands nor what other calls there
are. So chains that answer alike are mapped alike, and the answers stay when neighbours with
different names are exchanged or calls that nobody asks for are inserted.

## Implementation notes

Calls of one name may not be exchanged, because the first of them is the one that is read. That is
why chains are rearranged by steps here instead of being compared as multisets.
-/

namespace TableModels

/-- The fields are equal, up to the expressions that are kept in an unmapped type. -/
inductive SameButRaw : MappedField → MappedField → Prop
  | same (field : MappedField) : SameButRaw field field
  | unmapped (name raw other : String) (attributes : List Attribute) (optional : Bool) :
      SameButRaw ⟨name, .unmapped raw, attributes, optional⟩
        ⟨name, .unmapped other, attributes, optional⟩

/-- The outcomes of mapping are the same error, or the same field up to what an unmapped type keeps,
with the same registry. -/
inductive SameOutcome : Except ModelError (MappedField × EnumRegistry) →
    Except ModelError (MappedField × EnumRegistry) → Prop
  | error (error : ModelError) : SameOutcome (.error error) (.error error)
  | ok {field other : MappedField} (registry : EnumRegistry) (h : SameButRaw field other) :
      SameOutcome (.ok (field, registry)) (.ok (other, registry))

namespace SameButRaw

variable {field other : MappedField}

theorem withAttribute? (h : SameButRaw field other) (added : Option Attribute) :
    SameButRaw (field.withAttribute? added) (other.withAttribute? added) := by
  cases h with
  | same field => exact .same _
  | unmapped name raw other attributes optional => cases added <;> exact .unmapped _ _ _ _ _

theorem asOptional (h : SameButRaw field other) : SameButRaw field.asOptional other.asOptional := by
  cases h with
  | same field => exact .same _
  | unmapped name raw other attributes optional =>
      by_cases hidentity : .id ∈ attributes
      · simpa [MappedField.asOptional, MappedField.isIdentity, hidentity] using
          SameButRaw.unmapped name raw other attributes optional
      · simpa [MappedField.asOptional, MappedField.isIdentity, hidentity] using
          SameButRaw.unmapped name raw other attributes true

end SameButRaw

namespace Mapping

open Column (Call Expression)

/-! ### What is read of a chain -/

/-- The calls that mapping asks a chain for by their names alone. -/
def markers : List String :=
  ["primaryKey", "autoincrement", "notNull", "unique", "defaultNow", "onUpdateNow", "$onUpdate",
    "$onUpdateFn", "defaultRandom"]

/-- The calls of a chain that mapping reads. -/
def readCalls : List String :=
  "default" :: markers

/-- The expressions have the same type call, and chains that answer alike. -/
structure ReadsAlike (expr other : Expression) : Prop where
  base : expr.base = other.base
  has : ∀ marker ∈ markers, expr.has marker = other.has marker
  default : expr.default? = other.default?

namespace ReadsAlike

variable {expr other : Expression}

theorem columnName?_eq (h : ReadsAlike expr other) : expr.columnName? = other.columnName? := by
  rw [Expression.columnName?, Expression.columnName?, h.base]

theorem uint32Option?_eq (h : ReadsAlike expr other) :
    uint32Option? expr = uint32Option? other := by
  ext1 key
  rw [uint32Option?, uint32Option?, Expression.option?, Expression.option?, h.base]

theorem precision?_eq (h : ReadsAlike expr other) : precision? expr = precision? other := by
  rw [precision?, precision?, h.uint32Option?_eq]

theorem integerDefault?_eq (h : ReadsAlike expr other) :
    integerDefault? expr = integerDefault? other := by
  rw [integerDefault?, integerDefault?, h.default, h.has "notNull" (by decide)]

theorem timeAttribute?_eq (h : ReadsAlike expr other) :
    timeAttribute? expr = timeAttribute? other := by
  rw [timeAttribute?, timeAttribute?, h.default, h.has "defaultNow" (by decide),
    h.has "onUpdateNow" (by decide), h.has "$onUpdate" (by decide),
    h.has "$onUpdateFn" (by decide)]

theorem scalarColumn?_eq (h : ReadsAlike expr other) (kind : ColumnKind) :
    scalarColumn? kind expr = scalarColumn? kind other := by
  cases kind <;>
    simp only [scalarColumn?, stringDefault?, boolDefault?, decimalDefault?, h.default,
      h.integerDefault?_eq, h.timeAttribute?_eq, h.precision?_eq, h.uint32Option?_eq,
      h.has "unique" (by decide), h.has "defaultRandom" (by decide)]

theorem declaredEnum?_eq (h : ReadsAlike expr other) :
    declaredEnum? expr = declaredEnum? other := by
  rw [declaredEnum?, declaredEnum?, h.columnName?_eq, h.base]

theorem enumDefault?_eq (h : ReadsAlike expr other) : enumDefault? expr = enumDefault? other := by
  rw [enumDefault?, enumDefault?, h.default]

theorem columnMap?_eq (h : ReadsAlike expr other) (name : String) :
    columnMap? name expr = columnMap? name other := by
  rw [columnMap?, columnMap?, h.columnName?_eq]

theorem expressionRequests_eq (h : ReadsAlike expr other) (dialect : Dialect) :
    expressionRequests dialect expr = expressionRequests dialect other := by
  rw [expressionRequests, expressionRequests, h.has "primaryKey" (by decide),
    h.base, h.declaredEnum?_eq]

theorem coreFieldOf_eq (h : ReadsAlike expr other) (dialect : Dialect) (policy : IdentityPolicy)
    (name raw : String) :
    coreFieldOf dialect policy name raw expr = coreFieldOf dialect policy name raw other := by
  simp only [coreFieldOf, primaryKeyField, h.has "primaryKey" (by decide),
    h.has "autoincrement" (by decide), h.base, h.declaredEnum?_eq, h.enumDefault?_eq,
    h.scalarColumn?_eq]

end ReadsAlike

/-! ### Fields of chains that answer alike -/

variable {expr other : Expression}

/-- The text of an expression only reaches a field that no rule maps. -/
theorem sameButRaw_coreFieldOf (dialect : Dialect) (policy : IdentityPolicy)
    (name raw raw' : String) (expr : Expression) :
    SameButRaw (coreFieldOf dialect policy name raw expr)
      (coreFieldOf dialect policy name raw' expr) := by
  unfold coreFieldOf
  dsimp only
  split
  · exact .same _
  · split
    · exact .unmapped _ _ _ _ _
    · split
      · exact .unmapped _ _ _ _ _
      · exact .same _
    · split
      · exact .same _
      · exact .unmapped _ _ _ _ _

theorem sameOutcome_of_readsAlike {first second : FieldDeclaration} (h : ReadsAlike expr other)
    (hfirst : Column.parse first.expression = .ok expr)
    (hsecond : Column.parse second.expression = .ok other) (hname : first.name = second.name)
    (dialect : Dialect) (policy : IdentityPolicy) (registry : EnumRegistry) :
    SameOutcome (mapField dialect policy registry first)
      (mapField dialect policy registry second) := by
  have hrequests : fieldRequests dialect first = fieldRequests dialect second := by
    rw [fieldRequests, fieldRequests, hfirst, hsecond]
    exact h.expressionRequests_eq dialect
  have hfield : SameButRaw (mappedField dialect policy first)
      (mappedField dialect policy second) := by
    have hcore := sameButRaw_coreFieldOf dialect policy second.name first.expression
      second.expression other
    have hnamed := hcore.withAttribute? (columnMap? second.name other)
    simp only [mappedField, hfirst, hsecond, hname, h.coreFieldOf_eq, h.columnMap?_eq,
      h.has "notNull" (by decide)]
    split
    · exact hnamed
    · exact hnamed.asOptional
  rw [mapField_eq, mapField_eq, hrequests]
  cases registry.registerAll (fieldRequests dialect second) with
  | error error => exact .error error
  | ok after => exact .ok after hfield

/-! ### Rearranged chains -/

/-- The second chain comes of the first by exchanging neighbours with different names and by
inserting calls that mapping does not read. -/
inductive Rearranges : List Call → List Call → Prop
  | nil : Rearranges [] []
  | cons (call : Call) {chain after : List Call} (h : Rearranges chain after) :
      Rearranges (call :: chain) (call :: after)
  | exchange {call next : Call} (hnames : call.name ≠ next.name) (chain : List Call) :
      Rearranges (call :: next :: chain) (next :: call :: chain)
  | insert {call : Call} (hcall : call.name ∉ readCalls) {chain after : List Call}
      (h : Rearranges chain after) : Rearranges chain (call :: after)
  | trans {chain between after : List Call} (hfirst : Rearranges chain between)
      (hsecond : Rearranges between after) : Rearranges chain after

namespace Rearranges

variable {chain after : List Call}

/-- The first call of a name that is read stays the same. -/
theorem find?_eq (h : Rearranges chain after) {name : String} (hname : name ∈ readCalls) :
    chain.find? (·.name == name) = after.find? (·.name == name) := by
  induction h with
  | nil => rfl
  | cons call _ ih => rw [List.find?_cons, List.find?_cons, ih]
  | @exchange call next hnames chain =>
      by_cases hcall : call.name = name
      · have hnext : next.name ≠ name := fun h => hnames (hcall.trans h.symm)
        simp [hcall, hnext]
      · simp [List.find?_cons, hcall]
  | @insert call hcall chain after _ ih =>
      have hother : call.name ≠ name := fun h => hcall (h ▸ hname)
      rw [List.find?_cons_of_neg (by simpa using hother), ih]
  | trans _ _ ihfirst ihsecond => exact ihfirst.trans ihsecond

/-- Calls with distinct names may be put into any order. -/
theorem of_perm (h : chain.Perm after) (hnames : (chain.map (·.name)).Nodup) :
    Rearranges chain after := by
  induction h with
  | nil => exact .nil
  | cons call _ ih =>
      rw [List.map_cons, List.nodup_cons] at hnames
      exact .cons call (ih hnames.2)
  | swap call next chain =>
      rw [List.map_cons, List.map_cons, List.nodup_cons, List.mem_cons, not_or] at hnames
      exact .exchange hnames.1.1 chain
  | trans hfirst _ ihfirst ihsecond =>
      have hbetween := (hfirst.map (·.name)).nodup_iff.mp hnames
      exact .trans (ihfirst hnames) (ihsecond hbetween)

/-- Expressions with the same type call and rearranged chains answer alike. -/
theorem readsAlike {expr other : Expression} (h : Rearranges expr.chain other.chain)
    (hbase : expr.base = other.base) : ReadsAlike expr other := by
  have hmodifier : ∀ name ∈ readCalls, expr.modifier? name = other.modifier? name :=
    fun name hname => h.find?_eq hname
  constructor
  case base => exact hbase
  case has =>
    intro marker hmarker
    rw [Expression.has, Expression.has, hmodifier marker (List.mem_cons_of_mem _ hmarker)]
  case default =>
    rw [Expression.default?, Expression.default?, hmodifier "default" List.mem_cons_self]

end Rearranges

/-- Fields of one name whose expressions have the same type call are mapped alike when their chains
answer alike, and so when the second chain is a rearranged one or, if its calls have distinct names,
any permutation of the first. -/
theorem mapping_ignores_order {first second : FieldDeclaration}
    (hfirst : Column.parse first.expression = .ok expr)
    (hsecond : Column.parse second.expression = .ok other) (hname : first.name = second.name)
    (hbase : expr.base = other.base) (dialect : Dialect) (policy : IdentityPolicy)
    (registry : EnumRegistry) :
    ((∀ marker ∈ markers, expr.has marker = other.has marker) →
        expr.default? = other.default? →
        SameOutcome (mapField dialect policy registry first)
          (mapField dialect policy registry second)) ∧
      (Rearranges expr.chain other.chain →
        SameOutcome (mapField dialect policy registry first)
          (mapField dialect policy registry second)) ∧
      (expr.chain.Perm other.chain → (expr.chain.map (·.name)).Nodup →
        SameOutcome (mapField dialect policy registry first)
          (mapField dialect policy registry second)) := by
  have halike : ReadsAlike expr other → SameOutcome (mapField dialect policy registry first)
      (mapField dialect policy registry second) := fun h =>
    sameOutcome_of_readsAlike h hfirst hsecond hname dialect policy registry
  refine ⟨?_, ?_, ?_⟩
  · intro hhas hdefault
    exact halike ⟨hbase, hhas, hdefault⟩
  · intro hchain
    exact halike (hchain.readsAlike hbase)
  · intro hperm hnames
    exact halike ((Rearranges.of_perm hperm hnames).readsAlike hbase)

/-- A column with a name and a default of its own. -/
def mailField : FieldDeclaration :=
  ⟨"email", "varchar('mail').default('none').notNull().unique()", 1⟩

/-- The same column with its calls in another order, behind a call that mapping does not read, and
with a second default that comes too late. -/
def shuffledMailField : FieldDeclaration :=
  ⟨"email",
    "varchar('mail').references(() => a.b).unique().default('none').notNull().default(1)", 7⟩

theorem mapping_ignores_order_mail :
    ∃ expr other, Column.parse mailField.expression = .ok expr ∧
      Column.parse shuffledMailField.expression = .ok other ∧ expr.base = other.base ∧
      SameOutcome (mapField .mysql .uuid (EnumRegistry.empty .error) mailField)
        (mapField .mysql .uuid (EnumRegistry.empty .error) shuffledMailField) := by
  -- expressions cannot be compared by evaluation, so each is told by what is read of it
  have hread : ∀ text ∈ [mailField.expression, shuffledMailField.expression],
      (Column.parse text).toOption.map (fun expr =>
        (expr.base.name, expr.base.args.map Column.Value.string?, markers.map expr.has,
          expr.default?.bind Column.Value.string?)) =
        some ("varchar", [some "mail"],
          [false, false, true, true, false, false, false, false, false], some "none") := by
    decide +kernel
  have hvalues : ∀ text ∈ [mailField.expression, shuffledMailField.expression],
      ∃ expr, Column.parse text = .ok expr ∧ expr.base = ⟨"varchar", [.string "mail"]⟩ ∧
        markers.map expr.has = [false, false, true, true, false, false, false, false, false] ∧
        expr.default? = some (.string "none") := by
    intro text htext
    obtain ⟨expr, hexpr, hanswers⟩ := Option.map_eq_some_iff.mp (hread text htext)
    simp only [Prod.mk.injEq, List.map_eq_singleton_iff, Option.bind_eq_some_iff,
      Column.Value.string?_eq_some_iff] at hanswers
    obtain ⟨hname, ⟨_, hargs, rfl⟩, hmarkers, _, hdefault, rfl⟩ := hanswers
    exact ⟨expr, toOption_eq_some_iff.mp hexpr, by rw [← hname, ← hargs], hmarkers, hdefault⟩
  obtain ⟨expr, hfirst, hbase, hmarkers, hdefault⟩ := hvalues mailField.expression (by simp)
  obtain ⟨other, hsecond, hbase', hmarkers', hdefault'⟩ :=
    hvalues shuffledMailField.expression (by simp)
  have hsame : expr.base = other.base := hbase.trans hbase'.symm
  have houtcome := (mapping_ignores_order hfirst hsecond rfl hsame .mysql .uuid
    (EnumRegistry.empty .error)).1 (List.map_inj_left.mp (hmarkers.trans hmarkers'.symm))
      (hdefault.trans hdefault'.symm)
  exact ⟨expr, other, hfirst, hsecond, hsame, houtcome⟩

end Mapping

end TableModels
