import TableModels.Command.Outcome
import TableModels.Proofs.Files.ScriptRuns

/-!
# What a conversion does to the files

A conversion that succeeds has written the document, through its temporary file, and the two files
of its record: one before the source is read, and the other in the end. Nothing else happens to any
file.
-/

namespace TableModels

variable {stamp : RunStamp} {plan : ConversionPlan} {tree after : FileTree}

/-! ### Records and settings -/

theorem undergoes_of_writeRecord {path : Path} {record : Json}
    (h : (writeRecord path record).run.run tree = (.ok (), after)) :
    tree.Undergoes [⟨path, some record.render.toUTF8⟩] after := by
  rw [writeRecord, FileScript.run_andThen_ok_iff] at h
  obtain ⟨written, filled, hwritten, h⟩ := h
  cases written with
  | false => cases h
  | true =>
      cases h
      exact FileTree.undergoes_of_write? (FileScript.run_writeFile_iff.1 hwritten)

theorem undergoes_of_startRecord {runDirectory directory : Path}
    (h : (startRecord stamp plan runDirectory).run.run tree = (.ok directory, after)) :
    directory = runDirectory.child stamp.directoryName ∧
      tree.Undergoes [⟨directory.child "config.json", some (stamp.config plan).render.toUTF8⟩]
        after := by
  rw [startRecord, FileScript.run_andThen_ok_iff] at h
  obtain ⟨made, prepared, hmade, h⟩ := h
  dsimp only at h
  rw [FileScript.run_unless_ok_iff, FileScript.run_andThen_ok_iff] at h
  obtain ⟨rfl, _, _, hrecord, h⟩ := h
  cases h
  have hprepared :=
    FileTree.undergoes_makeDirectories tree (runDirectory.child stamp.directoryName)
  rw [FileScript.run_makeDirectories_iff.1 hmade] at hprepared
  exact ⟨rfl, hprepared.trans (undergoes_of_writeRecord hrecord)⟩

/-- Loading settings leaves the files as they are, whatever comes of it. -/
theorem snd_run_loadFrom (path : Path) (tree : FileTree) :
    ((Settings.loadFrom path).run.run tree).2 = tree := by
  rw [Settings.loadFrom, FileScript.run_andThen, FileScript.run_readTextOr]
  rcases (tree.read? path).bind String.fromUTF8? with _ | text
  · rfl
  · dsimp only [Option.elim]
    split <;> rfl

theorem snd_run_load (explicit : Option Path) (tree : FileTree) :
    ((Settings.load explicit).run.run tree).2 = tree := by
  cases explicit with
  | some path => exact snd_run_loadFrom path tree
  | none =>
      unfold Settings.load
      dsimp only
      rw [FileScript.run_andThen, FileScript.run_liftM]
      dsimp only [FileScript.run]
      split
      · exact snd_run_loadFrom defaultSettingsFile tree
      · rfl

/-! ### Plans -/

namespace ConversionPlan

/-- The directory that records the run, if there is to be one. -/
def record (stamp : RunStamp) (runDirectory : Option Path) : Option Path :=
  runDirectory.map fun parent => parent.child stamp.directoryName

/-- What happens to files before the source is read. -/
def openingEffects (plan : ConversionPlan) (stamp : RunStamp) (runDirectory : Option Path) :
    List FileEffect :=
  (record stamp runDirectory).toList.map fun directory =>
    ⟨directory.child "config.json", some (stamp.config plan).render.toUTF8⟩

/-- What happens to files when the document is written. -/
def documentEffects (plan : ConversionPlan) (document : String) : List FileEffect :=
  if plan.dryRun then []
  else
    (temporaryPath? plan.output).toList.map (fun temporary => ⟨temporary, none⟩)
      ++ [⟨plan.output, some document.toUTF8⟩]

/-- What happens to files once the source has been converted. -/
def closingEffects (plan : ConversionPlan) (stamp : RunStamp) (runDirectory : Option Path)
    (conversion : Conversion) : List FileEffect :=
  plan.documentEffects conversion.document
    ++ (record stamp runDirectory).toList.map fun directory =>
      ⟨directory.child "summary.json", some conversion.report.toJson.render.toUTF8⟩

/-- All that happens to files. -/
def effects (plan : ConversionPlan) (stamp : RunStamp) (runDirectory : Option Path)
    (conversion : Conversion) : List FileEffect :=
  plan.openingEffects stamp runDirectory ++ plan.closingEffects stamp runDirectory conversion

/-- A plan goes from one tree to another by the conversion of the source, which is read from a tree
between them. -/
structure Converts (plan : ConversionPlan) (stamp : RunStamp) (runDirectory : Option Path)
    (tree reading after : FileTree) (source : String) (conversion : Conversion) : Prop where
  opens : tree.Undergoes (plan.openingEffects stamp runDirectory) reading
  reads : reading.read? plan.input = some source.toUTF8
  converts : plan.convert source = .ok conversion
  closes : reading.Undergoes (plan.closingEffects stamp runDirectory conversion) after

/-! #### Steps -/

/-- Begin the record of the run, if there is to be one. -/
def openRecord (plan : ConversionPlan) (stamp : RunStamp) :
    Option Path → ExceptT CommandError FileScript (Option Path)
  | some parent => some <$> startRecord stamp plan parent
  | none => pure none

/-- Write the document, unless the run is dry. -/
def writeDocument (plan : ConversionPlan) (document : String) :
    ExceptT CommandError FileScript Unit :=
  if plan.dryRun then pure ()
  else (writeAtomically plan.output document.toUTF8).adapt .output

/-- Complete the record of the run, if there is one. -/
def closeRecord (report : ConversionReport) :
    Option Path → ExceptT CommandError FileScript Unit
  | some directory => finishRecord directory report
  | none => pure ()

/-- A plan is carried out step by step. -/
theorem perform_eq (plan : ConversionPlan) (stamp : RunStamp) (runDirectory : Option Path) :
    plan.perform stamp runDirectory = (do
      let record ← plan.openRecord stamp runDirectory
      let source ← FileScript.readTextOr (.read plan.input) plan.input
      let conversion ← ((plan.convert source).mapError .convert : Except CommandError Conversion)
      plan.writeDocument conversion.document
      closeRecord conversion.report record
      return plan.announcement conversion.report) := by
  cases runDirectory <;> cases hdry : plan.dryRun <;>
    simp [perform, openRecord, writeDocument, closeRecord, hdry]

variable {runDirectory : Option Path} {told : String}

theorem undergoes_of_openRecord {directory : Option Path}
    (h : (plan.openRecord stamp runDirectory).run.run tree = (.ok directory, after)) :
    directory = record stamp runDirectory ∧
      tree.Undergoes (plan.openingEffects stamp runDirectory) after := by
  cases runDirectory with
  | none =>
      cases h
      exact ⟨rfl, .refl tree⟩
  | some parent =>
      rw [openRecord, map_eq_pure_bind, FileScript.run_andThen_ok_iff] at h
      obtain ⟨started, between, hstarted, h⟩ := h
      cases h
      obtain ⟨rfl, hundergoes⟩ := undergoes_of_startRecord hstarted
      exact ⟨rfl, hundergoes⟩

theorem undergoes_of_writeDocument {document : String}
    (h : (plan.writeDocument document).run.run tree = (.ok (), after)) :
    tree.Undergoes (plan.documentEffects document) after := by
  unfold writeDocument at h
  unfold documentEffects
  split_ifs at h ⊢
  · cases h
    exact .refl tree
  · obtain ⟨temporary, htemporary, hundergoes⟩ :=
      undergoes_of_writeAtomically (FileScript.run_adapt_ok_iff.1 h)
    rw [htemporary]
    exact hundergoes

theorem undergoes_of_closeRecord {report : ConversionReport}
    (h : (closeRecord report (record stamp runDirectory)).run.run tree = (.ok (), after)) :
    tree.Undergoes ((record stamp runDirectory).toList.map fun directory =>
      ⟨directory.child "summary.json", some report.toJson.render.toUTF8⟩) after := by
  cases hrecord : record stamp runDirectory with
  | none =>
      rw [hrecord] at h
      cases h
      exact .refl tree
  | some directory =>
      rw [hrecord] at h
      exact undergoes_of_writeRecord h

theorem converts_of_perform
    (h : (plan.perform stamp runDirectory).run.run tree = (.ok told, after)) :
    ∃ source conversion reading,
      plan.Converts stamp runDirectory tree reading after source conversion ∧
        told = plan.announcement conversion.report := by
  rw [perform_eq, FileScript.run_andThen_ok_iff] at h
  obtain ⟨directory, reading, hopen, h⟩ := h
  obtain ⟨rfl, hopening⟩ := undergoes_of_openRecord hopen
  rw [FileScript.run_andThen_ok_iff] at h
  obtain ⟨source, _, hsource, h⟩ := h
  obtain ⟨hread, rfl⟩ := FileScript.run_readTextOr_ok_iff.1 hsource
  rw [FileScript.run_andThen_ok_iff] at h
  obtain ⟨conversion, _, hlift, h⟩ := h
  rw [FileScript.run_liftExcept] at hlift
  obtain ⟨hconvert, rfl⟩ := Prod.mk.inj hlift
  rw [FileScript.run_andThen_ok_iff] at h
  obtain ⟨⟨⟩, written, hwrite, h⟩ := h
  rw [FileScript.run_andThen_ok_iff] at h
  obtain ⟨⟨⟩, _, hclose, h⟩ := h
  cases h
  exact ⟨source, conversion, _, ⟨hopening, hread, mapError_eq_ok_iff.1 hconvert,
    (undergoes_of_writeDocument hwrite).trans (undergoes_of_closeRecord hclose)⟩, rfl⟩

end ConversionPlan

/-! ### Runs of the program -/

theorem converts_of_performConvert {arguments : ConvertArguments} {told : String}
    (h : (performConvert stamp arguments).run.run tree = (.ok told, after)) :
    ∃ settings plan source conversion reading,
      (Settings.load arguments.config).run.run tree = (.ok settings, tree) ∧
      arguments.plan settings = .ok plan ∧
      plan.Converts stamp arguments.runDirectory tree reading after source conversion ∧
      told = plan.announcement conversion.report := by
  rw [performConvert, FileScript.run_andThen_ok_iff] at h
  obtain ⟨settings, between, hload, h⟩ := h
  rw [FileScript.run_adapt_ok_iff] at hload
  obtain rfl : between = tree := by simpa [hload] using snd_run_load arguments.config tree
  rw [FileScript.run_andThen_ok_iff] at h
  obtain ⟨plan, _, hlift, h⟩ := h
  rw [FileScript.run_liftExcept] at hlift
  obtain ⟨hplan, rfl⟩ := Prod.mk.inj hlift
  obtain ⟨source, conversion, reading, hconverts, htold⟩ := ConversionPlan.converts_of_perform h
  exact ⟨settings, plan, source, conversion, reading, hload, mapError_eq_ok_iff.1 hplan,
    hconverts, htold⟩

theorem run_program_convert {words : List String} {arguments : ConvertArguments}
    (hwords : Invocation.read words = .ok (.perform (.convert arguments))) (tree : FileTree) :
    (runProgram stamp words).run tree =
      (.ofResult ((performConvert stamp arguments).run.run tree).1,
        ((performConvert stamp arguments).run.run tree).2) := by
  rw [runProgram, hwords]
  exact FileScript.run_map _ _ tree

theorem run_performConvert_of_success {words : List String} {arguments : ConvertArguments}
    {told : String} (hwords : Invocation.read words = .ok (.perform (.convert arguments)))
    (hrun : (runProgram stamp words).run tree = (.success told, after)) :
    (performConvert stamp arguments).run.run tree = (.ok told, after) := by
  rw [run_program_convert hwords] at hrun
  obtain ⟨houtcome, rfl⟩ := Prod.mk.inj hrun
  cases hresult : ((performConvert stamp arguments).run.run tree).1 with
  | error error =>
      rw [hresult] at houtcome
      cases houtcome
  | ok text =>
      rw [hresult] at houtcome
      cases houtcome
      exact Prod.ext hresult rfl

end TableModels
