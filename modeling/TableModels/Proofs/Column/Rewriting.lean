import TableModels.Proofs.Column.Backtracking
import TableModels.Proofs.Column.CallReading

/-!
# Tokens that change and keep their kinds

What is read from a list of tokens depends on the kinds of the tokens, and on their texts only in
the values that are no literals. So when tokens change and keep their kinds, the reader takes the
same runs, and the expression that it answers is the old one with each verbatim text rewritten.

## Implementation notes

Every reader has one lemma, which moves the change from the tokens in front of it to its result.
Errors tell places, and so only the results are compared. The readers of values, entries and items
are taken together, in the induction by which `Backtracks.readers_eq` shows them unique.
-/

namespace TableModels.Column

mutual

/-- The value in which each text of an expression that is no literal is rewritten. -/
def Value.mapVerbatim (rewrite : String → String) : Value → Value
  | .string value => .string value
  | .number literal => .number literal
  | .bool value => .bool value
  | .ident name => .ident name
  | .object entries => .object (rewriteEntries rewrite entries)
  | .array items => .array (rewriteItems rewrite items)
  | .verbatim text => .verbatim (rewrite text)

/-- The entries of an object with their values rewritten. -/
def rewriteEntries (rewrite : String → String) : List (String × Value) → List (String × Value)
  | [] => []
  | (key, value) :: rest => (key, value.mapVerbatim rewrite) :: rewriteEntries rewrite rest

/-- The items of an array, rewritten. -/
def rewriteItems (rewrite : String → String) : List Value → List Value
  | [] => []
  | value :: rest => value.mapVerbatim rewrite :: rewriteItems rewrite rest

end

/-- The call in which the verbatim texts of the arguments are rewritten. -/
def Call.mapVerbatim (rewrite : String → String) (call : Call) : Call :=
  ⟨call.name, call.args.map (Value.mapVerbatim rewrite)⟩

/-- The expression in which the verbatim texts are rewritten. -/
def Expression.mapVerbatim (rewrite : String → String) (expr : Expression) : Expression :=
  ⟨expr.base.mapVerbatim rewrite, expr.chain.map (Call.mapVerbatim rewrite)⟩

/-- The object entry with its value rewritten. -/
def rewriteEntry (rewrite : String → String) (entry : String × Value) : String × Value :=
  (entry.1, entry.2.mapVerbatim rewrite)

theorem rewriteEntries_eq_map (rewrite : String → String) (entries : List (String × Value)) :
    rewriteEntries rewrite entries = entries.map (rewriteEntry rewrite) := by
  induction entries with
  | nil => rfl
  | cons entry rest ih => rw [rewriteEntries, ih]; rfl

theorem rewriteItems_eq_map (rewrite : String → String) (items : List Value) :
    rewriteItems rewrite items = items.map (Value.mapVerbatim rewrite) := by
  induction items with
  | nil => rfl
  | cons item rest ih => rw [rewriteItems, ih]; rfl

theorem mapVerbatim_wordValue (rewrite : String → String) (name : String) :
    (wordValue name).mapVerbatim rewrite = wordValue name := by
  unfold wordValue
  split
  · rfl
  · split <;> rfl

mutual

theorem Value.mapVerbatim_id : ∀ value : Value, value.mapVerbatim id = value
  | .string _ => rfl
  | .number _ => rfl
  | .bool _ => rfl
  | .ident _ => rfl
  | .object entries => congrArg Value.object (rewriteEntries_id entries)
  | .array items => congrArg Value.array (rewriteItems_id items)
  | .verbatim _ => rfl

theorem rewriteEntries_id : ∀ entries : List (String × Value), rewriteEntries id entries = entries
  | [] => rfl
  | (key, value) :: rest => by
      rw [rewriteEntries, value.mapVerbatim_id, rewriteEntries_id rest]

theorem rewriteItems_id : ∀ items : List Value, rewriteItems id items = items
  | [] => rfl
  | value :: rest => by
      rw [rewriteItems, value.mapVerbatim_id, rewriteItems_id rest]

end

theorem Call.mapVerbatim_id (call : Call) : call.mapVerbatim id = call := by
  have hargs : call.args.map (Value.mapVerbatim id) = call.args.map id :=
    List.map_congr_left fun value _ => value.mapVerbatim_id
  rw [mapVerbatim, hargs, List.map_id]

theorem Expression.mapVerbatim_id (expr : Expression) : expr.mapVerbatim id = expr := by
  have hchain : expr.chain.map (Call.mapVerbatim id) = expr.chain.map id :=
    List.map_congr_left fun call _ => call.mapVerbatim_id
  rw [mapVerbatim, hchain, List.map_id, Call.mapVerbatim_id]

/-- A change of tokens that keeps their kinds, with what it makes of the text of a run. The tokens
of the run have the property `Kept`. -/
structure Rewrites (change : Token → Token) (rewrite : String → String) (Kept : Token → Prop) :
    Prop where
  kind : ∀ token, (change token).kind = token.kind
  text : ∀ first run, (∀ token ∈ first :: run, Kept token) →
    String.ofList (runText ((first :: run).map change)) =
      rewrite (String.ofList (runText (first :: run)))

section

variable {change : Token → Token} {rewrite : String → String} {Kept : Token → Prop}

/-! ### Runs -/

theorem valueRun_map (hkind : ∀ token, (change token).kind = token.kind) (depth : Nat)
    (tokens : List Token) :
    valueRun depth (tokens.map change) =
      ((valueRun depth tokens).1.map change, (valueRun depth tokens).2.map change) := by
  induction tokens generalizing depth with
  | nil => rfl
  | cons token rest ih =>
      have hopens : (change token).opens = token.opens := by
        simp [Token.opens, Token.isPunct, hkind]
      have hcloses : (change token).closes = token.closes := by
        simp [Token.closes, Token.isPunct, hkind]
      have hcomma := isPunct_congr (hkind token) ','
      simp only [List.map_cons, valueRun, hopens, hcloses, hcomma]
      split
      · rw [ih]
        rfl
      · split
        · cases depth with
          | zero => rfl
          | succ depth =>
              simp only [ih]
              rfl
        · split
          · rfl
          · rw [ih]
            rfl

theorem endsValue_map (hkind : ∀ token, (change token).kind = token.kind) (tokens : List Token) :
    endsValue (tokens.map change) = endsValue tokens := by
  cases tokens with
  | nil => rfl
  | cons token rest => simp [endsValue, Token.closes, Token.isPunct, hkind]

/-- What is left of the tokens behind a value is the end of them. -/
theorem suffix_of_valueAhead? {tokens later : List Token} {value : Value}
    (h : valueAhead? tokens = some (value, later)) : later <:+ tokens := by
  have happend := valueRun_append 0 tokens
  rw [valueAhead?] at h
  split at h
  · cases h
  · rename_i first run rest hrun
    cases h
    rw [hrun] at happend
    exact ⟨first :: run, happend⟩

theorem suffix_of_entryBy {tokens later : List Token} {entry : String × Value}
    (h : entryBy valueAhead? tokens = some (entry, later)) : later <:+ tokens := by
  unfold entryBy at h
  split at h
  · rename_i key colon rest
    split at h
    · split at h
      · obtain ⟨⟨value, after⟩, hvalue, hpair⟩ := Option.map_eq_some_iff.1 h
        cases hpair
        exact (suffix_of_valueAhead? hvalue).trans ⟨[key, colon], rfl⟩
      · cases h
    · cases h
  · cases h

/-! ### One step of a reader -/

/-- One step of a list is taken behind the change as before it. -/
theorem listingStep_map (hkind : ∀ token, (change token).kind = token.kind) {α β : Type}
    {close : Char} {image : α → β} {element? : List Token → Option (α × List Token)}
    {element'? : List Token → Option (β × List Token)}
    {read : List Token → Option (List α × List Token)}
    {read' : List Token → Option (List β × List Token)} {tokens : List Token}
    (helement : element'? (tokens.map change) =
      (element? tokens).map (Prod.map image (List.map change)))
    (hread : ∀ {element separator later}, element? tokens = some (element, separator :: later) →
      read' (later.map change) = (read later).map (Prod.map (List.map image) (List.map change))) :
    listingStep close element'? read' (tokens.map change) =
      (listingStep close element? read tokens).map
        (Prod.map (List.map image) (List.map change)) := by
  cases tokens with
  | nil => rfl
  | cons token rest =>
      rw [List.map_cons] at helement ⊢
      simp only [listingStep, isPunct_congr (hkind token) close, helement]
      split
      · rfl
      · cases hahead : element? (token :: rest) with
        | none => rfl
        | some ahead =>
            obtain ⟨element, later⟩ := ahead
            cases later with
            | nil => rfl
            | cons separator later =>
                simp only [Option.map_some, Prod.map_apply, List.map_cons,
                  isPunct_congr (hkind separator), hread hahead]
                split
                · cases read later <;> rfl
                · split <;> rfl

theorem entryBy_map (hkind : ∀ token, (change token).kind = token.kind)
    {value? : List Token → Option (Value × List Token)} {tokens : List Token}
    (hvalue : ∀ {key colon later}, tokens = key :: colon :: later →
      value? (later.map change) =
        (value? later).map (Prod.map (Value.mapVerbatim rewrite) (List.map change))) :
    entryBy value? (tokens.map change) =
      (entryBy value? tokens).map (Prod.map (rewriteEntry rewrite) (List.map change)) := by
  match tokens with
  | [] => rfl
  | [_] => rfl
  | key :: colon :: rest =>
      simp only [List.map_cons, entryBy, hkind, isPunct_congr (hkind colon), hvalue rfl]
      split
      · split
        · cases value? rest <;> rfl
        · rfl
      · rfl

/-- A literal is read behind the change as before it, where the lists inside of it are. -/
theorem literalBy_map (hkind : ∀ token, (change token).kind = token.kind)
    {entries? : List Token → Option (List (String × Value) × List Token)}
    {items? : List Token → Option (List Value × List Token)} {tokens : List Token}
    (hentries : ∀ {first later}, tokens = first :: later → entries? (later.map change) =
      (entries? later).map (Prod.map (List.map (rewriteEntry rewrite)) (List.map change)))
    (hitems : ∀ {first later}, tokens = first :: later → items? (later.map change) =
      (items? later).map (Prod.map (List.map (Value.mapVerbatim rewrite)) (List.map change))) :
    literalBy entries? items? (tokens.map change) =
      (literalBy entries? items? tokens).map
        (Prod.map (Value.mapVerbatim rewrite) (List.map change)) := by
  cases tokens with
  | nil => rfl
  | cons token rest =>
      simp only [List.map_cons, literalBy, hkind, hentries rfl, hitems rfl]
      split
      · rfl
      · rfl
      · rw [Option.map_some, Prod.map_apply, mapVerbatim_wordValue]
      · cases rest with
        | nil => rfl
        | cons digits later =>
            have hdigits := hkind digits
            obtain ⟨kind, offset, gap, text⟩ := digits
            cases hchanged : change ⟨kind, offset, gap, text⟩ with
            | mk kind' offset' gap' text' =>
                rw [hchanged] at hdigits
                obtain rfl : kind' = kind := hdigits
                rw [List.map_cons, hchanged]
                cases kind' <;> rfl
      · cases entries? rest with
        | none => rfl
        | some read => simp [Value.mapVerbatim, rewriteEntries_eq_map]
      · cases items? rest with
        | none => rfl
        | some read => simp [Value.mapVerbatim, rewriteItems_eq_map]
      · rfl

theorem Rewrites.verbatimAhead?_map (h : Rewrites change rewrite Kept) {tokens : List Token}
    (hkept : ∀ token ∈ tokens, Kept token) :
    verbatimAhead? (tokens.map change) =
      (verbatimAhead? tokens).map (Prod.map (Value.mapVerbatim rewrite) (List.map change)) := by
  have happend := valueRun_append 0 tokens
  rw [verbatimAhead?, verbatimAhead?, valueRun_map h.kind]
  cases hrun : valueRun 0 tokens with
  | mk run later =>
      rw [hrun] at happend
      cases run with
      | nil => rfl
      | cons first run =>
          have htext := h.text first run fun token htoken =>
            hkept token (happend ▸ List.mem_append_left later htoken)
          simp only [List.map_cons, Option.map_some, Prod.map_apply, Value.mapVerbatim]
          rw [← htext]
          rfl

theorem Rewrites.literalOrVerbatim_map (h : Rewrites change rewrite Kept)
    {literal? : List Token → Option (Value × List Token)} {tokens : List Token}
    (hkept : ∀ token ∈ tokens, Kept token)
    (hliteral : literal? (tokens.map change) =
      (literal? tokens).map (Prod.map (Value.mapVerbatim rewrite) (List.map change))) :
    literalOrVerbatim literal? (tokens.map change) =
      (literalOrVerbatim literal? tokens).map
        (Prod.map (Value.mapVerbatim rewrite) (List.map change)) := by
  rw [literalOrVerbatim, literalOrVerbatim, hliteral, h.verbatimAhead?_map hkept]
  cases literal? tokens with
  | none => rfl
  | some ahead =>
      obtain ⟨value, later⟩ := ahead
      simp only [Option.map_some, Prod.map_apply, endsValue_map h.kind]
      split <;> rfl

/-! ### Values and their lists -/

/-- The readers of values, entries and items take behind the change what they take before it. -/
theorem Rewrites.readers_map (h : Rewrites change rewrite Kept) (tokens : List Token)
    (hkept : ∀ token ∈ tokens, Kept token) :
    valueAhead? (tokens.map change) =
        (valueAhead? tokens).map (Prod.map (Value.mapVerbatim rewrite) (List.map change)) ∧
      objectEntries (tokens.map change) =
        (objectEntries tokens).map
          (Prod.map (List.map (rewriteEntry rewrite)) (List.map change)) ∧
      arrayItems (tokens.map change) =
        (arrayItems tokens).map
          (Prod.map (List.map (Value.mapVerbatim rewrite)) (List.map change)) := by
  induction hlength : tokens.length using Nat.strongRecOn generalizing tokens with
  | ind length ih =>
      subst hlength
      have hvalue : ∀ later, later <:+ tokens → valueAhead? (later.map change) =
          (valueAhead? later).map (Prod.map (Value.mapVerbatim rewrite) (List.map change)) := by
        intro later hlater
        have hkept' : ∀ token ∈ later, Kept token := fun token htoken =>
          hkept token (hlater.subset htoken)
        have hinner : ∀ {first inside}, later = first :: inside →
            inside.length < tokens.length ∧ ∀ token ∈ inside, Kept token := by
          rintro first inside rfl
          exact ⟨hlater.length_le, fun token htoken =>
            hkept' token (List.mem_cons_of_mem first htoken)⟩
        rw [valueAhead?_eq_literalOrVerbatim, valueAhead?_eq_literalOrVerbatim]
        apply h.literalOrVerbatim_map hkept'
        apply literalBy_map h.kind
        · intro first inside heq
          obtain ⟨hlt, hinside⟩ := hinner heq
          exact (ih inside.length hlt inside hinside rfl).2.1
        · intro first inside heq
          obtain ⟨hlt, hinside⟩ := hinner heq
          exact (ih inside.length hlt inside hinside rfl).2.2
      have hentry : entryBy valueAhead? (tokens.map change) =
          (entryBy valueAhead? tokens).map (Prod.map (rewriteEntry rewrite) (List.map change)) := by
        apply entryBy_map h.kind
        rintro key colon later rfl
        exact hvalue later ⟨[key, colon], rfl⟩
      -- what is left behind an element and its separator is a shorter end of the tokens
      have hshorter : ∀ {separator : Token} {later : List Token}, separator :: later <:+ tokens →
          later.length < tokens.length ∧ ∀ token ∈ later, Kept token := by
        intro separator later hlater
        exact ⟨hlater.length_le, fun token htoken =>
          hkept token (hlater.subset (List.mem_cons_of_mem separator htoken))⟩
      refine ⟨hvalue tokens List.suffix_rfl, ?_, ?_⟩
      · rw [objectEntries_step, objectEntries_step tokens]
        apply listingStep_map h.kind hentry
        intro element separator later hread
        obtain ⟨hlt, hlater⟩ := hshorter (suffix_of_entryBy hread)
        exact (ih later.length hlt later hlater rfl).2.1
      · rw [arrayItems_step, arrayItems_step tokens]
        apply listingStep_map h.kind (hvalue tokens List.suffix_rfl)
        intro element separator later hread
        obtain ⟨hlt, hlater⟩ := hshorter (suffix_of_valueAhead? hread)
        exact (ih later.length hlt later hlater rfl).2.2

theorem Rewrites.arguments_map (h : Rewrites change rewrite Kept) (stop stop' : Nat)
    (tokens : List Token) (hkept : ∀ token ∈ tokens, Kept token) :
    (arguments stop' (tokens.map change)).toOption =
      (arguments stop tokens).toOption.map
        (Prod.map (List.map (Value.mapVerbatim rewrite)) (List.map change)) := by
  induction hlength : tokens.length using Nat.strongRecOn generalizing tokens with
  | ind length ih =>
      subst hlength
      rw [arguments_step, arguments_step]
      apply listingStep_map h.kind (h.readers_map tokens hkept).1
      intro element separator later hread
      have hlater := suffix_of_valueAhead? hread
      apply ih later.length hlater.length_le later _ rfl
      intro token htoken
      exact hkept token (hlater.subset (List.mem_cons_of_mem separator htoken))

/-! ### Calls -/

theorem afterAngles?_map (hkind : ∀ token, (change token).kind = token.kind) (depth : Nat)
    (tokens : List Token) :
    afterAngles? depth (tokens.map change) = (afterAngles? depth tokens).map (List.map change) := by
  induction tokens generalizing depth with
  | nil => rfl
  | cons token rest ih =>
      simp only [List.map_cons, afterAngles?, isPunct_congr (hkind token), ih]
      split
      · rfl
      · split
        · split <;> rfl
        · rfl

theorem skipTypeArguments_map (hkind : ∀ token, (change token).kind = token.kind)
    (tokens : List Token) :
    (skipTypeArguments (tokens.map change)).toOption =
      (skipTypeArguments tokens).toOption.map (List.map change) := by
  cases tokens with
  | nil => rfl
  | cons token rest =>
      simp only [List.map_cons, skipTypeArguments, isPunct_congr (hkind token),
        afterAngles?_map hkind]
      split
      · cases afterAngles? 1 rest <;> rfl
      · rfl

theorem toOption_callName (stop : Nat) (tokens : List Token) :
    (callName stop tokens).toOption =
      tokens.head?.bind fun token =>
        match token.kind with
        | .ident name => (skipTypeArguments tokens.tail).toOption.map fun later => (name, later)
        | _ => none := by
  cases tokens with
  | nil => rfl
  | cons token rest =>
      obtain ⟨kind, offset, gap, text⟩ := token
      cases kind with
      | ident name =>
          simp only [callName, List.head?_cons, List.tail_cons, Option.bind_some]
          cases skipTypeArguments rest <;> rfl
      | string value => rfl
      | template => rfl
      | number literal => rfl
      | arrow => rfl
      | punct c => rfl

/-- The reader of names looks at the kind of the first token alone. -/
theorem callName_cons_map (hkind : ∀ token, (change token).kind = token.kind) (stop stop' : Nat)
    {first first' : Token} (hfirst : first'.kind = first.kind) (rest : List Token) :
    (callName stop' (first' :: rest.map change)).toOption =
      (callName stop (first :: rest)).toOption.map (Prod.map id (List.map change)) := by
  simp only [toOption_callName, List.head?_cons, List.tail_cons, Option.bind_some, hfirst,
    skipTypeArguments_map hkind]
  cases first.kind <;> cases (skipTypeArguments rest).toOption <;> rfl

theorem callName_map (hkind : ∀ token, (change token).kind = token.kind) (stop stop' : Nat)
    (tokens : List Token) :
    (callName stop' (tokens.map change)).toOption =
      (callName stop tokens).toOption.map (Prod.map id (List.map change)) := by
  cases tokens with
  | nil => rfl
  | cons first rest => exact callName_cons_map hkind stop stop' (hkind first) rest

/-! ### Members and whole expressions -/

/-- The arguments at the head of the tokens, none where no parenthesis opens, and the tokens behind
them. -/
def argumentsAhead? (stop : Nat) : List Token → Option (List Value × List Token)
  | [] => some ([], [])
  | token :: rest =>
      if token.isPunct '(' then (arguments stop rest).toOption else some ([], token :: rest)

theorem argumentsAhead?_eq (stop : Nat) (tokens : List Token) :
    argumentsAhead? stop tokens = (argumentsBehind stop tokens).toOption := by
  cases tokens with
  | nil => rfl
  | cons token rest =>
      rw [argumentsAhead?, argumentsBehind]
      split <;> rfl

theorem chainedCalls_step (stop : Nat) (point : Token) (rest : List Token) :
    (chainedCalls stop (point :: rest)).toOption =
      if point.isPunct '.' then
        (callName stop rest).toOption.bind fun (name, later) =>
          (argumentsAhead? stop later).bind fun (args, after) =>
            (chainedCalls stop after).toOption.map fun (calls, remaining) =>
              (⟨name, args⟩ :: calls, remaining)
      else
        some ([], point :: rest) := by
  rw [chainedCalls_cons]
  split
  · simp only [toOption_bind, toOption_map, argumentsAhead?_eq]
  · rfl

theorem suffix_of_argumentsAhead? {stop : Nat} {tokens later : List Token} {values : List Value}
    (h : argumentsAhead? stop tokens = some (values, later)) : later <:+ tokens := by
  rw [argumentsAhead?_eq, toOption_eq_some_iff] at h
  exact suffix_of_argumentsBehind h

theorem Rewrites.argumentsAhead?_map (h : Rewrites change rewrite Kept) (stop stop' : Nat)
    (tokens : List Token) (hkept : ∀ token ∈ tokens, Kept token) :
    argumentsAhead? stop' (tokens.map change) =
      (argumentsAhead? stop tokens).map
        (Prod.map (List.map (Value.mapVerbatim rewrite)) (List.map change)) := by
  cases tokens with
  | nil => rfl
  | cons token rest =>
      have hrest : ∀ token ∈ rest, Kept token := fun other hother =>
        hkept other (List.mem_cons_of_mem token hother)
      simp only [List.map_cons, argumentsAhead?, isPunct_congr (h.kind token),
        h.arguments_map stop stop' rest hrest]
      split <;> rfl

theorem Rewrites.chainedCalls_map (h : Rewrites change rewrite Kept) (stop stop' : Nat)
    (tokens : List Token) (hkept : ∀ token ∈ tokens, Kept token) :
    (chainedCalls stop' (tokens.map change)).toOption =
      (chainedCalls stop tokens).toOption.map
        (Prod.map (List.map (Call.mapVerbatim rewrite)) (List.map change)) := by
  induction hlength : tokens.length using Nat.strongRecOn generalizing tokens with
  | ind length ih =>
      subst hlength
      cases tokens with
      | nil =>
          rw [List.map_nil, chainedCalls.eq_def, chainedCalls.eq_def stop []]
          rfl
      | cons point rest =>
          rw [List.map_cons, chainedCalls_step, chainedCalls_step,
            isPunct_congr (h.kind point), callName_map h.kind stop stop']
          split
          · cases hname : (callName stop rest).toOption with
            | none => rfl
            | some named =>
                obtain ⟨name, later⟩ := named
                have hlater := suffix_of_callName (toOption_eq_some_iff.1 hname)
                have hlater' : ∀ token ∈ later, Kept token := fun token htoken =>
                  hkept token (List.mem_cons_of_mem point (hlater.subset htoken))
                simp only [Option.map_some, Prod.map_apply, Option.bind_some,
                  h.argumentsAhead?_map stop stop' later hlater']
                cases hargs : argumentsAhead? stop later with
                | none => rfl
                | some called =>
                    obtain ⟨args, after⟩ := called
                    have hafter := suffix_of_argumentsAhead? hargs
                    have hlt : after.length < (point :: rest).length :=
                      Nat.lt_succ_of_le (Nat.le_trans hafter.length_le hlater.length_le)
                    have hcalls := ih after.length hlt after
                      (fun token htoken => hlater' token (hafter.subset htoken)) rfl
                    simp only [Option.map_some, Prod.map_apply, Option.bind_some, hcalls]
                    cases (chainedCalls stop after).toOption <;> rfl
          · rfl

/-- An expression is a name, an opening parenthesis, arguments and members. -/
theorem toOption_expression (stop : Nat) (tokens : List Token) :
    (expression stop tokens).toOption =
      (callName stop tokens).toOption.bind fun (name, later) =>
        later.head?.bind fun next =>
          if next.isPunct '(' then
            (arguments stop later.tail).toOption.bind fun (args, after) =>
              (chainedCalls stop after).toOption.map fun (calls, remaining) =>
                (⟨⟨name, args⟩, calls⟩, remaining)
          else
            none := by
  unfold expression
  cases callName stop tokens with
  | error error => rfl
  | ok named =>
      obtain ⟨name, later⟩ := named
      cases later with
      | nil => rfl
      | cons next later =>
          simp only [toOption_ok, Option.bind_some, List.head?_cons, List.tail_cons]
          split
          · cases arguments stop later with
            | error error => rfl
            | ok called =>
                obtain ⟨args, after⟩ := called
                simp only [toOption_ok, Option.bind_some]
                cases chainedCalls stop after <;> rfl
          · rfl

/-- An expression is read behind the change as before it. Of the first token only the kind is looked
at. -/
theorem Rewrites.expression_cons_map (h : Rewrites change rewrite Kept) (stop stop' : Nat)
    {first first' : Token} (hfirst : first'.kind = first.kind) (rest : List Token)
    (hkept : ∀ token ∈ rest, Kept token) :
    (expression stop' (first' :: rest.map change)).toOption =
      (expression stop (first :: rest)).toOption.map
        (Prod.map (Expression.mapVerbatim rewrite) (List.map change)) := by
  rw [toOption_expression, toOption_expression, callName_cons_map h.kind stop stop' hfirst]
  cases hname : (callName stop (first :: rest)).toOption with
  | none => rfl
  | some named =>
      obtain ⟨name, later⟩ := named
      obtain ⟨token, generic, heq, -, -⟩ := callName_eq_ok_iff.1 (toOption_eq_some_iff.1 hname)
      obtain ⟨-, rfl⟩ := List.cons.inj heq
      have hlater : ∀ token ∈ later, Kept token := fun token htoken =>
        hkept token (List.mem_append_right generic htoken)
      cases later with
      | nil => rfl
      | cons next later =>
          have hbehind : ∀ token ∈ later, Kept token := fun token htoken =>
            hlater token (List.mem_cons_of_mem next htoken)
          simp only [Option.map_some, Prod.map_apply, Option.bind_some, List.map_cons,
            List.head?_cons, List.tail_cons, isPunct_congr (h.kind next),
            h.arguments_map stop stop' later hbehind]
          split
          · cases hargs : (arguments stop later).toOption with
            | none => rfl
            | some called =>
                obtain ⟨args, after⟩ := called
                obtain ⟨used, rfl, -⟩ := arguments_eq_ok_iff.1 (toOption_eq_some_iff.1 hargs)
                have hcalls := h.chainedCalls_map stop stop' after fun token htoken =>
                  hbehind token (List.mem_append_right used htoken)
                simp only [Option.map_some, Prod.map_apply, Option.bind_some, hcalls]
                cases (chainedCalls stop after).toOption <;> rfl
          · rfl

end

/-- A text is an expression when all of its tokens are. -/
theorem toOption_parse (text : String) :
    (parse text).toOption =
      (tokenize text.toList).toOption.bind fun tokens =>
        (expression text.utf8ByteSize tokens).toOption.bind fun (expr, later) =>
          if later.isEmpty then some expr else none := by
  unfold parse
  cases tokenize text.toList with
  | error error => rfl
  | ok tokens =>
      cases tokens with
      | nil => rfl
      | cons first rest =>
          simp only [toOption_ok, Option.bind_some]
          cases expression text.utf8ByteSize (first :: rest) with
          | error error => rfl
          | ok pair =>
              obtain ⟨expr, later⟩ := pair
              cases later <;> rfl

end TableModels.Column
