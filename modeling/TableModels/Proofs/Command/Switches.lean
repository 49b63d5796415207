import TableModels.Command.Invocation
import TableModels.Proofs.ExceptResult

/-!
# Switches among arguments

A switch that stands among the arguments of a command is on in what is read from them, wherever it
stands, provided that no other argument turns it off again. If no other argument looks at it either,
the arguments are read as they are without it, and only the switch is on besides.
-/

namespace TableModels

/-! ### Shapes of arguments -/

theorem eq_of_argumentShape_endOfOptions {word : String}
    (h : argumentShape word = .endOfOptions) : word = "--" := by
  unfold argumentShape at h
  split at h
  · rename_i htext
    exact String.toList_inj.mp htext
  · split at h <;> cases h
  · cases h
  · cases h

theorem eq_of_argumentShape_long {word name : String}
    (h : argumentShape word = .long name none) : word = "--" ++ name := by
  unfold argumentShape at h
  split at h
  · cases h
  · rename_i text _ htext
    split at h
    · cases h
    · rename_i hrest
      cases h
      have hall := List.takeWhile_append_dropWhile (p := (· != '=')) (l := text)
      rw [hrest, List.append_nil] at hall
      rw [← String.toList_inj, htext, hall]
      simp only [String.toList_append, String.toList_ofList]
      rfl
  · cases h
  · cases h

namespace CommandForm

variable {α : Type}

/-- The arguments that have been read satisfy the condition once the given switch has been read, and
go on to satisfy it. No argument is positional. -/
structure TurnsOn (form : CommandForm α) (name : String) (holds : α → Prop) : Prop where
  isSwitch : ∃ turnOn, form.option? name = some (.switch turnOn) ∧
    ∀ soFar next, turnOn soFar = .ok next → holds next
  keptBySwitch : ∀ other turnOn soFar next, form.option? other = some (.switch turnOn) →
    turnOn soFar = .ok next → holds soFar → holds next
  keptByValue : ∀ other give value soFar next, form.option? other = some (.valued give) →
    give value soFar = .ok next → holds soFar → holds next
  positional : ∀ argument soFar next, form.positional argument soFar ≠ .ok next

theorem bind_fitting_eq_ok_iff {β : Type} {result : Except UsageError α}
    {next : α → Except ReadingStop β} {value : β} :
    (fitting result >>= next) = .ok value ↔ ∃ read, result = .ok read ∧ next read = .ok value := by
  rw [bind_eq_ok_iff]
  simp only [fitting, mapError_eq_ok_iff]

variable {form : CommandForm α} {name : String} {holds : α → Prop}

theorem TurnsOn.readPositionals (h : form.TurnsOn name holds) {soFar arguments : α}
    {words : List String} (hread : form.readPositionals soFar words = .ok arguments) :
    words = [] ∧ arguments = soFar := by
  cases words with
  | nil =>
      cases hread
      exact ⟨rfl, rfl⟩
  | cons argument rest =>
      rw [CommandForm.readPositionals, bind_fitting_eq_ok_iff] at hread
      obtain ⟨next, hnext, -⟩ := hread
      exact absurd hnext (h.positional argument soFar next)

/-- A switch that stands among the arguments is on. -/
theorem TurnsOn.read (h : form.TurnsOn name holds) {word : String}
    (hshape : argumentShape word = .long name none) {soFar arguments : α} {words : List String}
    (hread : form.read soFar words = .ok arguments) (hon : holds soFar ∨ word ∈ words) :
    holds arguments := by
  obtain ⟨turnOn, hswitch, hturnOn⟩ := h.isSwitch
  fun_induction CommandForm.read form soFar words with
  | case1 soFar =>
      cases hread
      simpa using hon
  | case2 soFar argument rest hend =>
      obtain ⟨rfl, rfl⟩ := h.readPositionals hread
      rcases hon with hon | hmem
      · exact hon
      · rw [List.mem_singleton.mp hmem, hend] at hshape
        cases hshape
  | case3 soFar argument rest hplain ih =>
      obtain ⟨next, hnext, -⟩ := bind_fitting_eq_ok_iff.mp hread
      exact absurd hnext (h.positional argument soFar next)
  | case8 soFar argument rest other turned hother _ hlong ih =>
      obtain ⟨next, hnext, hread⟩ := bind_fitting_eq_ok_iff.mp hread
      apply ih next hread
      rcases hon with hon | hmem
      · exact Or.inl (h.keptBySwitch other turned soFar next hother hnext hon)
      · rcases List.mem_cons.mp hmem with rfl | hmem
        · -- here the switch itself is read
          cases hshape.symm.trans hlong
          cases hswitch.symm.trans hother
          exact Or.inl (hturnOn soFar next hnext)
        · exact Or.inr hmem
  | case10 soFar argument rest other give value hother _ hlong ih =>
      obtain ⟨next, hnext, hread⟩ := bind_fitting_eq_ok_iff.mp hread
      apply ih next hread
      rcases hon with hon | hmem
      · exact Or.inl (h.keptByValue other give value soFar next hother hnext hon)
      · rcases List.mem_cons.mp hmem with rfl | hmem
        · cases hshape.symm.trans hlong
        · exact Or.inr hmem
  | case12 soFar argument other give hother value rest hplain _ hlong ih =>
      obtain ⟨next, hnext, hread⟩ := bind_fitting_eq_ok_iff.mp hread
      apply ih next hread
      rcases hon with hon | hmem
      · exact Or.inl (h.keptByValue other give value soFar next hother hnext hon)
      · rcases List.mem_cons.mp hmem with rfl | hmem
        · cases hshape.symm.trans hlong
          cases hswitch.symm.trans hother
        · rcases List.mem_cons.mp hmem with rfl | hmem
          · cases hshape.symm.trans hplain
          · exact Or.inr hmem
  | _ => cases hread

/-! ### Single arguments -/

variable {soFar between : α} {argument value : String} {rest : List String}

theorem read_switch {turnOn : α → Except UsageError α} (hhelp : name ≠ "help")
    (hshape : argumentShape argument = .long name none)
    (hoption : form.option? name = some (.switch turnOn)) :
    form.read soFar (argument :: rest) =
      fitting (turnOn soFar) >>= fun next => form.read next rest := by
  simp [read, hshape, hoption, hhelp]

theorem read_attached {give : String → α → Except UsageError α}
    (hshape : argumentShape argument = .long name (some value))
    (hoption : form.option? name = some (.valued give)) :
    form.read soFar (argument :: rest) =
      fitting (give value soFar) >>= fun next => form.read next rest := by
  simp only [read, hshape, hoption]

theorem read_detached {give : String → α → Except UsageError α} (hhelp : name ≠ "help")
    (hshape : argumentShape argument = .long name none)
    (hoption : form.option? name = some (.valued give)) (hplain : argumentShape value = .plain) :
    form.read soFar (argument :: value :: rest) =
      fitting (give value soFar) >>= fun next => form.read next rest := by
  simp [read, hshape, hoption, hhelp, hplain]

/-! ### Switches that no other argument looks at -/

variable {mark : α → α}

/-- A mark on the arguments read so far makes no difference to any option but the switch of the
given name, and it stays on them. -/
structure Ignores (form : CommandForm α) (name : String) (mark : α → α) : Prop where
  switch : ∀ other turnOn soFar, other ≠ name → form.option? other = some (.switch turnOn) →
    turnOn (mark soFar) = (turnOn soFar).map mark
  valued : ∀ other give value soFar, form.option? other = some (.valued give) →
    give value (mark soFar) = (give value soFar).map mark
  positional : ∀ argument soFar,
    form.positional argument (mark soFar) = (form.positional argument soFar).map mark

theorem bind_fitting_map {result : Except UsageError α} {next : α → Except ReadingStop α}
    (h : ∀ value, next (mark value) = (next value).map mark) :
    fitting (result.map mark) >>= next = (fitting result >>= next).map mark := by
  cases result with
  | error error => rfl
  | ok value => exact h value

theorem Ignores.readPositionals (h : form.Ignores name mark) (soFar : α) (words : List String) :
    form.readPositionals (mark soFar) words = (form.readPositionals soFar words).map mark := by
  induction words generalizing soFar with
  | nil => rfl
  | cons argument rest ih =>
      rw [CommandForm.readPositionals, CommandForm.readPositionals, h.positional]
      exact bind_fitting_map ih

/-- The mark stays on the arguments while others are read. -/
theorem Ignores.read (h : form.Ignores name mark) {words : List String}
    (hwords : ∀ word ∈ words, argumentShape word ≠ .long name none) :
    form.read (mark soFar) words = (form.read soFar words).map mark := by
  fun_induction CommandForm.read form soFar words with
  | case1 soFar => rfl
  | case2 soFar argument rest hend =>
      simp only [CommandForm.read, hend]
      exact h.readPositionals soFar rest
  | case3 soFar argument rest hplain ih =>
      simp only [CommandForm.read, hplain, h.positional]
      exact bind_fitting_map fun next => ih next (List.forall_mem_cons.mp hwords).2
  | case8 soFar argument rest other turnOn hoption hhelp hlong ih =>
      obtain ⟨hargument, hrest⟩ := List.forall_mem_cons.mp hwords
      have hother : other ≠ name := by
        rintro rfl
        exact hargument hlong
      rw [read_switch (fun heq => hhelp heq rfl) hlong hoption,
        h.switch other turnOn soFar hother hoption]
      exact bind_fitting_map fun next => ih next hrest
  | case10 soFar argument rest other give value hoption _ hlong ih =>
      rw [read_attached hlong hoption, h.valued other give value soFar hoption]
      exact bind_fitting_map fun next => ih next (List.forall_mem_cons.mp hwords).2
  | case12 soFar argument other give hoption value rest hplain hhelp hlong ih =>
      rw [read_detached (fun heq => hhelp heq rfl) hlong hoption hplain,
        h.valued other give value soFar hoption]
      apply bind_fitting_map
      intro next
      exact ih next (List.forall_mem_cons.mp (List.forall_mem_cons.mp hwords).2).2
  -- what does not fit is an error, with the mark and without
  | _ => simp [CommandForm.read, Except.map, *]

/-- Arguments that fit are read before those that follow them. -/
theorem read_append {front : List String} (hfront : form.read soFar front = .ok between)
    (hoptions : ∀ word ∈ front, argumentShape word ≠ .endOfOptions) (rest : List String) :
    form.read soFar (front ++ rest) = form.read between rest := by
  fun_induction CommandForm.read form soFar front with
  | case1 soFar =>
      cases hfront
      rfl
  | case2 soFar argument _ hend => exact absurd hend (hoptions argument List.mem_cons_self)
  | case3 soFar argument later hplain ih =>
      obtain ⟨next, hnext, hread⟩ := bind_fitting_eq_ok_iff.mp hfront
      rw [List.cons_append]
      simp only [CommandForm.read, hplain]
      rw [hnext]
      exact ih next hread (List.forall_mem_cons.mp hoptions).2
  | case8 soFar argument later other turnOn hoption hhelp hlong ih =>
      obtain ⟨next, hnext, hread⟩ := bind_fitting_eq_ok_iff.mp hfront
      rw [List.cons_append, read_switch (fun heq => hhelp heq rfl) hlong hoption, hnext]
      exact ih next hread (List.forall_mem_cons.mp hoptions).2
  | case10 soFar argument later other give value hoption _ hlong ih =>
      obtain ⟨next, hnext, hread⟩ := bind_fitting_eq_ok_iff.mp hfront
      rw [List.cons_append, read_attached hlong hoption, hnext]
      exact ih next hread (List.forall_mem_cons.mp hoptions).2
  | case12 soFar argument other give hoption value later hplain hhelp hlong ih =>
      obtain ⟨next, hnext, hread⟩ := bind_fitting_eq_ok_iff.mp hfront
      rw [List.cons_append, List.cons_append,
        read_detached (fun heq => hhelp heq rfl) hlong hoption hplain, hnext]
      exact ih next hread (List.forall_mem_cons.mp (List.forall_mem_cons.mp hoptions).2).2
  | _ => cases hfront

end CommandForm

namespace ConvertArguments

theorem turnOnOnce_eq_ok_iff {option : String} {present next : Bool} :
    turnOnOnce option present = .ok next ↔ present = false ∧ next = true := by
  cases present <;> simp [turnOnOnce, eq_comm]

theorem turnsOn_dryRun : form.TurnsOn "dry-run" fun arguments => arguments.dryRun = true where
  isSwitch := by
    refine ⟨_, rfl, fun soFar next hnext => ?_⟩
    obtain ⟨dryRun, hdry, hnext⟩ := bind_eq_ok_iff.mp hnext
    cases hnext
    exact (turnOnOnce_eq_ok_iff.mp hdry).2
  keptBySwitch := by
    intro other turnOn soFar next hoption hnext hdry
    change option? other = _ at hoption
    unfold option? at hoption
    split at hoption <;> cases hoption
    · obtain ⟨_, -, hnext⟩ := bind_eq_ok_iff.mp hnext
      cases hnext
      exact hdry
    · obtain ⟨dryRun, hturned, hnext⟩ := bind_eq_ok_iff.mp hnext
      cases hnext
      exact (turnOnOnce_eq_ok_iff.mp hturned).2
  keptByValue := by
    intro other give value soFar next hoption hnext hdry
    change option? other = _ at hoption
    unfold option? at hoption
    split at hoption <;> cases hoption
    -- an excluded name is added whatever it is, and any other value is read and fills its place
    case h_6 =>
      cases hnext
      exact hdry
    all_goals
      obtain ⟨_, -, hnext⟩ := bind_eq_ok_iff.mp hnext
      obtain ⟨_, -, hnext⟩ := bind_eq_ok_iff.mp hnext
      cases hnext
      exact hdry
  positional _ _ _ hnext := by cases hnext

/-- A conversion that is told to be dry anywhere among its arguments is dry. -/
theorem dryRun_of_mem {words : List String} {arguments : ConvertArguments}
    (hread : ConvertArguments.read words = .ok arguments) (h : "--dry-run" ∈ words) :
    arguments.dryRun = true :=
  turnsOn_dryRun.read rfl hread (Or.inr h)

/-! ### The switch for dry runs -/

/-- The same arguments for a run that is dry or not. -/
def withDryRun (dryRun : Bool) (arguments : ConvertArguments) : ConvertArguments :=
  { arguments with dryRun }

theorem ignores_dryRun (dryRun : Bool) : form.Ignores "dry-run" (withDryRun dryRun) where
  switch := by
    intro other turnOn soFar hother hoption
    change option? other = _ at hoption
    unfold option? at hoption
    split at hoption <;> cases hoption
    · exact bind_eq_map_bind fun _ => rfl
    · exact absurd rfl hother
  valued := by
    intro other give value soFar hoption
    change option? other = _ at hoption
    unfold option? at hoption
    split at hoption <;> cases hoption
    case h_6 => rfl
    all_goals exact bind_eq_map_bind fun _ => bind_eq_map_bind fun _ => rfl
  positional _ _ := rfl

variable {front back words : List String} {arguments between : ConvertArguments}

theorem ne_long_of_notMem (h : "--dry-run" ∉ words) :
    ∀ word ∈ words, argumentShape word ≠ .long "dry-run" none := by
  intro word hword hshape
  rw [eq_of_argumentShape_long hshape] at hword
  exact h hword

/-- Without the switch a run is not dry. -/
theorem dryRun_eq_false (hread : ConvertArguments.read words = .ok arguments)
    (h : "--dry-run" ∉ words) : arguments.dryRun = false := by
  have hkept : form.read (withDryRun false {}) words =
      (form.read {} words).map (withDryRun false) :=
    (ignores_dryRun false).read (ne_long_of_notMem h)
  change ConvertArguments.read words = (ConvertArguments.read words).map _ at hkept
  rw [hread] at hkept
  exact congrArg ConvertArguments.dryRun (Except.ok.inj hkept)

/-- The switch makes the run dry, and nothing else comes of it, if it stands where an option can
stand. -/
theorem read_with_dryRun (hfront : ConvertArguments.read front = .ok between)
    (hoptions : "--" ∉ front) (h : "--dry-run" ∉ front ++ back) :
    ConvertArguments.read (front ++ "--dry-run" :: back) =
      (ConvertArguments.read (front ++ back)).map (withDryRun true) := by
  rw [List.mem_append, not_or] at h
  have hshapes : ∀ word ∈ front, argumentShape word ≠ .endOfOptions := by
    intro word hword hshape
    rw [eq_of_argumentShape_endOfOptions hshape] at hword
    exact hoptions hword
  have hoff := dryRun_eq_false hfront h.1
  calc
    form.read {} (front ++ "--dry-run" :: back)
        = form.read between ("--dry-run" :: back) :=
          CommandForm.read_append hfront hshapes ("--dry-run" :: back)
    _ = form.read (withDryRun true between) back := by
          rw [CommandForm.read_switch (show "dry-run" ≠ "help" by decide) rfl rfl, hoff]
          rfl
    _ = (form.read between back).map (withDryRun true) :=
          (ignores_dryRun true).read (ne_long_of_notMem h.2)
    _ = (form.read {} (front ++ back)).map (withDryRun true) := by
          rw [CommandForm.read_append hfront hshapes back]

end ConvertArguments

end TableModels
