import TableModels.Proofs.Files.ScriptRuns

/-!
# The paths that a run may change

A run that fails has done some of its work, and how much is told only by the failure. What can be
said of every run, whatever its result, is to which paths its effects belong: a file to which none
of these leads is as it was.
-/

namespace TableModels

namespace FileTree

variable {tree between after : FileTree} {paths more : List Path} {place : Place}

/-- A tree becomes another by effects on the given paths, whichever and how many they are. -/
def ChangesOnly (tree : FileTree) (paths : List Path) (after : FileTree) : Prop :=
  ∃ effects : List FileEffect,
    (∀ effect ∈ effects, effect.path ∈ paths) ∧ tree.Undergoes effects after

theorem Undergoes.changesOnly {effects : List FileEffect} (h : tree.Undergoes effects after)
    (hpaths : ∀ effect ∈ effects, effect.path ∈ paths) : tree.ChangesOnly paths after :=
  ⟨effects, hpaths, h⟩

namespace ChangesOnly

theorem refl (tree : FileTree) (paths : List Path) : tree.ChangesOnly paths tree :=
  (Undergoes.refl tree).changesOnly (List.forall_mem_nil _)

theorem trans (h : tree.ChangesOnly paths between) (hafter : between.ChangesOnly paths after) :
    tree.ChangesOnly paths after := by
  obtain ⟨effects, hpaths, hfirst⟩ := h
  obtain ⟨later, hmore, hsecond⟩ := hafter
  apply (hfirst.trans hsecond).changesOnly
  exact List.forall_mem_append.mpr ⟨hpaths, hmore⟩

theorem mono (h : tree.ChangesOnly paths after) (hsubset : paths ⊆ more) :
    tree.ChangesOnly more after := by
  obtain ⟨effects, hpaths, hundergoes⟩ := h
  exact hundergoes.changesOnly fun effect heffect => hsubset (hpaths effect heffect)

theorem workingDirectory (h : tree.ChangesOnly paths after) :
    after.workingDirectory = tree.workingDirectory := by
  obtain ⟨_, -, hundergoes⟩ := h
  exact hundergoes.keepsDirectories.workingDirectory

/-- A file to which none of the paths leads is as it was. -/
theorem content? (h : tree.ChangesOnly paths after)
    (hplace : ∀ path ∈ paths, after.locate? path ≠ some place) :
    after.content? place = tree.content? place := by
  obtain ⟨effects, hpaths, hundergoes⟩ := h
  rw [hundergoes.content]
  apply contentAfter_of_forall_ne
  intro effect heffect
  exact hplace effect.path (hpaths effect heffect)

end ChangesOnly

end FileTree

namespace FileScript

variable {ε α β : Type} {tree after : FileTree}

/-- What can be said of every step of a run can be said of the run. -/
theorem changesOnly_andThen {paths : List Path} {script : ExceptT ε FileScript α}
    {next : α → ExceptT ε FileScript β} {result : Except ε β}
    (h : (script >>= next).run.run tree = (result, after))
    (hfirst : tree.ChangesOnly paths (script.run.run tree).2)
    (hnext : ∀ value between, script.run.run tree = (.ok value, between) →
      (next value).run.run between = (result, after) → between.ChangesOnly paths after) :
    tree.ChangesOnly paths after := by
  rw [run_andThen] at h
  rcases hrun : script.run.run tree with ⟨_ | value, between⟩
  · rw [hrun] at h hfirst
    cases h
    exact hfirst
  · rw [hrun] at h hfirst
    exact hfirst.trans (hnext value between hrun h)

theorem exists_run_of_run_adapt_error {δ : Type} {script : ExceptT δ FileScript α}
    {wrap : δ → ε} {error : ε} (h : (script.adapt wrap).run.run tree = (.error error, after)) :
    ∃ cause, script.run.run tree = (.error cause, after) := by
  rw [run_adapt] at h
  rcases hrun : script.run.run tree with ⟨cause | value, between⟩
  · rw [hrun] at h
    cases h
    exact ⟨cause, rfl⟩
  · rw [hrun] at h
    cases h

theorem changesOnly_makeDirectories (path : Path) (tree : FileTree) (paths : List Path) :
    tree.ChangesOnly paths
      ((liftM (makeDirectories path done) : ExceptT ε FileScript Bool).run.run tree).2 :=
  (FileTree.undergoes_makeDirectories tree path).changesOnly (List.forall_mem_nil _)

theorem changesOnly_writeFile (path : Path) (content : ByteArray) (tree : FileTree) :
    tree.ChangesOnly [path]
      ((liftM (writeFile path content done) : ExceptT ε FileScript Bool).run.run tree).2 := by
  rw [run_liftM, run]
  cases hwrite : tree.write? path content with
  | none => exact .refl tree [path]
  | some after =>
      exact (FileTree.undergoes_of_write? hwrite).changesOnly (by simp)

end FileScript

/-- A file is written in three steps, and each of them may fail. -/
theorem run_writeAtomically (path : Path) (content : ByteArray) (tree : FileTree) :
    (writeAtomically path content).run.run tree =
      match tree.makeDirectories path.parent with
      | (false, prepared) => (.error .io, prepared)
      | (true, prepared) =>
          match temporaryPath? path with
          | none => (.error (.invalidPath path), prepared)
          | some temporary =>
              match prepared.write? temporary content with
              | none => (.error .io, prepared)
              | some filled =>
                  match filled.rename? temporary path with
                  | none => (.error .io, filled)
                  | some moved => (.ok (), moved) := by
  rw [writeAtomically, FileScript.run_andThen, FileScript.run_liftM]
  dsimp only [FileScript.run]
  rcases tree.makeDirectories path.parent with ⟨_ | _, prepared⟩
  · rfl
  · rw [if_pos rfl]
    cases temporaryPath? path with
    | none => rfl
    | some temporary =>
        dsimp only
        rw [FileScript.run_andThen, FileScript.run_liftM]
        dsimp only [FileScript.run]
        cases prepared.write? temporary content with
        | none => rfl
        | some filled =>
            dsimp only
            rw [if_pos rfl, FileScript.run_andThen, FileScript.run_liftM]
            dsimp only [FileScript.run]
            cases filled.rename? temporary path <;> rfl

/-- A write that fails may leave its temporary file behind, and nothing else. -/
theorem changesOnly_of_writeAtomically_error {path : Path} {content : ByteArray}
    {error : WriteError} {tree after : FileTree}
    (h : (writeAtomically path content).run.run tree = (.error error, after)) :
    tree.ChangesOnly (temporaryPath? path).toList after := by
  have hprepares := FileTree.undergoes_makeDirectories tree path.parent
  rw [run_writeAtomically] at h
  split at h
  · rename_i prepared hmade
    rw [hmade] at hprepares
    cases h
    exact hprepares.changesOnly (List.forall_mem_nil _)
  · rename_i prepared hmade
    rw [hmade] at hprepares
    split at h
    · cases h
      exact hprepares.changesOnly (List.forall_mem_nil _)
    · rename_i temporary htemporary
      split at h
      · cases h
        exact hprepares.changesOnly (List.forall_mem_nil _)
      · rename_i filled hwrite
        split at h
        · cases h
          apply (hprepares.trans (FileTree.undergoes_of_write? hwrite)).changesOnly
          simp [htemporary]
        · cases h

end TableModels
