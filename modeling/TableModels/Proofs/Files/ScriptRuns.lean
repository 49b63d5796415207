import TableModels.Files.AtomicWrite
import TableModels.Proofs.ExceptResult
import TableModels.Proofs.Files.FileEffects

/-!
# Runs of scripts that may fail

A script that may fail is run step by step: what a step changes is done before the next step begins,
and a failure ends the run. Here are the runs that come to an end without a failure, with the
effects they have on the files.
-/

namespace TableModels

/-- The text of bytes is the one that has these bytes. -/
theorem fromUTF8?_eq_some_iff {bytes : ByteArray} {text : String} :
    String.fromUTF8? bytes = some text ↔ bytes = text.toUTF8 := by
  rw [String.fromUTF8?]
  split_ifs with hvalid
  · constructor
    · rintro h
      cases h
      rfl
    · rintro rfl
      rfl
  · constructor
    · rintro ⟨⟩
    · rintro rfl
      exact absurd text.isValidUTF8 hvalid

namespace FileScript

variable {ε δ α β : Type} {tree after : FileTree}

theorem run_throw (error : ε) (tree : FileTree) :
    (throw error : ExceptT ε FileScript α).run.run tree = (.error error, tree) := rfl

theorem run_liftM (script : FileScript α) (tree : FileTree) :
    (liftM script : ExceptT ε FileScript α).run.run tree =
      (.ok (script.run tree).1, (script.run tree).2) := by
  change (FileScript.bind script fun value => .done (Except.ok value)).run tree = _
  rw [run_bind]
  rfl

theorem run_liftExcept (result : Except ε α) (tree : FileTree) :
    (liftM result : ExceptT ε FileScript α).run.run tree = (result, tree) := rfl

theorem run_map (f : α → β) (script : FileScript α) (tree : FileTree) :
    (f <$> script).run tree = (f (script.run tree).1, (script.run tree).2) := by
  change (FileScript.bind script fun value => .done (f value)).run tree = _
  rw [run_bind]
  rfl

/-- One script after the other: the second runs on the tree that the first leaves, unless the first
has failed. -/
theorem run_andThen (script : ExceptT ε FileScript α) (next : α → ExceptT ε FileScript β)
    (tree : FileTree) :
    (script >>= next).run.run tree =
      match script.run.run tree with
      | (.ok value, between) => (next value).run.run between
      | (.error error, between) => (.error error, between) := by
  rw [ExceptT.run_bind]
  change (FileScript.bind _ _).run tree = _
  rw [run_bind]
  rcases script.run.run tree with ⟨_ | value, between⟩ <;> rfl

theorem run_andThen_ok_iff {script : ExceptT ε FileScript α}
    {next : α → ExceptT ε FileScript β} {value : β} :
    (script >>= next).run.run tree = (.ok value, after) ↔
      ∃ first between, script.run.run tree = (.ok first, between) ∧
        (next first).run.run between = (.ok value, after) := by
  rw [run_andThen]
  rcases hfirst : script.run.run tree with ⟨_ | first, between⟩
  · simp
  · constructor
    · exact fun h => ⟨first, between, rfl, h⟩
    · rintro ⟨_, _, hsame, h⟩
      cases hsame
      exact h

/-- A step that fails unless something has been done. -/
theorem run_unless_ok_iff {done : Bool} {error : ε} {rest : ExceptT ε FileScript α}
    {other : δ → ExceptT ε FileScript α} {value : α} :
    (if done = true then rest else throw error >>= other).run.run tree = (.ok value, after) ↔
      done = true ∧ rest.run.run tree = (.ok value, after) := by
  cases done with
  | true => simp
  | false =>
      rw [if_neg Bool.false_ne_true, run_andThen, run_throw]
      simp

theorem run_adapt (script : ExceptT δ FileScript α) (wrap : δ → ε) (tree : FileTree) :
    (script.adapt wrap).run.run tree =
      ((script.run.run tree).1.mapError wrap, (script.run.run tree).2) := by
  change (FileScript.bind script.run fun result => .done (result.mapError wrap)).run tree = _
  rw [run_bind]
  rfl

theorem run_adapt_ok_iff {script : ExceptT δ FileScript α} {wrap : δ → ε} {value : α} :
    (script.adapt wrap).run.run tree = (.ok value, after) ↔
      script.run.run tree = (.ok value, after) := by
  rw [run_adapt]
  simp [Prod.ext_iff, mapError_eq_ok_iff]

/-! ### Operations -/

variable {path source target : Path} {content : ByteArray}

theorem run_makeDirectories_iff {made : Bool} :
    (liftM (makeDirectories path done) : ExceptT ε FileScript Bool).run.run tree =
        (.ok made, after) ↔
      tree.makeDirectories path = (made, after) := by
  rw [run_liftM]
  change (Except.ok (tree.makeDirectories path).1, (tree.makeDirectories path).2) = _ ↔ _
  rcases tree.makeDirectories path with ⟨found, between⟩
  simp

theorem run_writeFile_iff :
    (liftM (writeFile path content done) : ExceptT ε FileScript Bool).run.run tree =
        (.ok true, after) ↔
      tree.write? path content = some after := by
  rw [run_liftM, run]
  cases tree.write? path content <;> simp [run]

theorem run_renameFile_iff :
    (liftM (renameFile source target done) : ExceptT ε FileScript Bool).run.run tree =
        (.ok true, after) ↔
      tree.rename? source target = some after := by
  rw [run_liftM, run]
  cases tree.rename? source target <;> simp [run]

/-- Reading a text leaves the files as they are. -/
theorem run_readTextOr (error : ε) (path : Path) (tree : FileTree) :
    (readTextOr error path).run.run tree =
      (((tree.read? path).bind String.fromUTF8?).elim (.error error) .ok, tree) := by
  have hread : (readText path).run tree = ((tree.read? path).bind String.fromUTF8?, tree) := rfl
  rw [readTextOr, run_andThen, run_liftM, hread]
  cases (tree.read? path).bind String.fromUTF8? <;> rfl

/-- A text has been read when the file holds its bytes. -/
theorem run_readTextOr_ok_iff {error : ε} {text : String} :
    (readTextOr error path).run.run tree = (.ok text, after) ↔
      tree.read? path = some text.toUTF8 ∧ after = tree := by
  rw [run_readTextOr]
  constructor
  · intro h
    obtain ⟨hresult, rfl⟩ := Prod.mk.inj h
    cases htext : (tree.read? path).bind String.fromUTF8? with
    | none =>
        rw [htext] at hresult
        cases hresult
    | some found =>
        rw [htext] at hresult
        cases hresult
        obtain ⟨bytes, hbytes, hdecoded⟩ := Option.bind_eq_some_iff.1 htext
        cases fromUTF8?_eq_some_iff.1 hdecoded
        exact ⟨hbytes, rfl⟩
  · rintro ⟨hread, rfl⟩
    rw [hread, Option.bind_some, fromUTF8?_eq_some_iff.2 rfl]
    rfl

end FileScript

/-- What has been written atomically is at its place, and there is no temporary file any more. -/
theorem undergoes_of_writeAtomically {path : Path} {content : ByteArray} {tree after : FileTree}
    (h : (writeAtomically path content).run.run tree = (.ok (), after)) :
    ∃ temporary, temporaryPath? path = some temporary ∧
      tree.Undergoes [⟨temporary, none⟩, ⟨path, some content⟩] after := by
  rw [writeAtomically, FileScript.run_andThen_ok_iff] at h
  obtain ⟨made, prepared, hmade, h⟩ := h
  dsimp only at h
  rw [FileScript.run_unless_ok_iff] at h
  obtain ⟨rfl, h⟩ := h
  split at h
  · cases h
  · rename_i temporary htemporary
    rw [FileScript.run_andThen_ok_iff] at h
    obtain ⟨written, filled, hwritten, h⟩ := h
    rw [FileScript.run_unless_ok_iff, FileScript.run_andThen_ok_iff] at h
    obtain ⟨rfl, moved, renamed, hrenamed, h⟩ := h
    cases moved with
    | false => cases h
    | true =>
        cases h
        rw [FileScript.run_makeDirectories_iff] at hmade
        rw [FileScript.run_writeFile_iff] at hwritten
        rw [FileScript.run_renameFile_iff] at hrenamed
        have hprepared := FileTree.undergoes_makeDirectories tree path.parent
        rw [hmade] at hprepared
        obtain ⟨found, hfound, hmoved⟩ := FileTree.undergoes_of_rename? hrenamed
        cases (FileTree.read?_of_write? hwritten).symm.trans hfound
        refine ⟨temporary, htemporary, ?_⟩
        have hall := (hprepared.trans (FileTree.undergoes_of_write? hwritten)).trans hmoved
        exact hall.overwritten

end TableModels
