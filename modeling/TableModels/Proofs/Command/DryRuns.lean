import TableModels.Proofs.Command.PartialOutput
import TableModels.Proofs.Files.NewDirectories

/-!
# What a dry run tells of a run

A conversion comes to a point at which all is settled but the writing of its document: the settings
have been loaded, the run is being recorded, and the source has been converted. Up to there it makes
no difference whether the run is dry. So a dry run fails as the run itself would fail, and where it
succeeds, the run can only fail to write.

## Implementation notes

Two runs have different stamps, so their records stand in different directories, and the trees in
which they read the source are different, too. The forecast of a conversion is therefore told from
the tree in which the directory above the record is made; it mentions no stamp.
-/

namespace TableModels

variable {stamp : RunStamp} {plan : ConversionPlan} {tree prepared after : FileTree}
  {conversion : Conversion} {error : CommandError}

/-! ### Records with new names -/

/-- The directory of the record has a name that is new: nothing in the tree goes by it, and no part
of the given paths does. It can be the name of a directory. -/
structure RunStamp.IsNewFor (stamp : RunStamp) (tree : FileTree) (paths : List Path) : Prop where
  noSlash : '/' ∉ stamp.id.toList
  noNull : '\x00' ∉ stamp.id.toList
  lacks : tree.Lacks stamp.directoryName
  paths : ∀ path ∈ paths, stamp.directoryName ∉ path.segments

variable {paths : List Path} {parent : Path}

theorem RunStamp.IsNewFor.isFileName (h : stamp.IsNewFor tree paths) :
    IsFileName stamp.directoryName := by
  obtain ⟨hpart, hup, hdot⟩ := isPathPart_directoryName h.noSlash
  exact ⟨hpart, hdot, hup, notMem_directoryName rfl (by decide) (by decide) h.noNull⟩

theorem run_writeRecord {path : Path} {record : Json}
    (h : tree.write? path record.render.toUTF8 = some after) :
    (writeRecord path record).run.run tree = (.ok (), after) := by
  rw [writeRecord, FileScript.run_andThen, FileScript.run_writeFile_iff.mpr h]
  rfl

/-- A run that cannot have a directory for its record fails. -/
theorem run_startRecord_of_false (hnew : stamp.IsNewFor tree paths)
    (h : tree.makeDirectories parent = (false, prepared)) :
    (startRecord stamp plan parent).run.run tree = (.error .registry, prepared) := by
  have hmade := FileTree.makeDirectories_child_of_false hnew.isFileName h
  rw [startRecord, FileScript.run_andThen, FileScript.run_makeDirectories_iff.mpr hmade]
  rfl

theorem isFileName_config : IsFileName "config.json" :=
  ⟨⟨by decide, by decide⟩, by decide, by decide, by decide⟩

theorem isFileName_summary : IsFileName "summary.json" :=
  ⟨⟨by decide, by decide⟩, by decide, by decide, by decide⟩

/-- The record is begun in a new directory, in which it can be completed. What is read at the given
paths is as before. -/
theorem exists_run_startRecord (hnew : stamp.IsNewFor tree paths) (hparent : parent ∈ paths)
    (h : tree.makeDirectories parent = (true, prepared)) :
    ∃ opened, (startRecord stamp plan parent).run.run tree =
        (.ok (parent.child stamp.directoryName), opened) ∧
      (∀ path ∈ paths, opened.read? path = prepared.read? path) ∧
      ∀ report, ∃ after,
        (finishRecord (parent.child stamp.directoryName) report).run.run opened =
          (.ok (), after) := by
  obtain ⟨made, place, hmade, hempty, hmem, hbeside⟩ :=
    FileTree.exists_makeDirectories_child hnew.isFileName hnew.lacks (hnew.paths parent hparent) h
  have hlacks := hnew.lacks.makeDirectories (hnew.paths parent hparent)
  rw [h] at hlacks
  obtain ⟨opened, hwrite, hholds, hagrees⟩ :=
    hempty.exists_write? isFileName_config List.not_mem_nil (stamp.config plan).render.toUTF8
  refine ⟨opened, ?_, ?_, ?_⟩
  · rw [startRecord, FileScript.run_andThen, FileScript.run_makeDirectories_iff.mpr hmade]
    dsimp only
    rw [if_pos rfl, FileScript.run_andThen, run_writeRecord hwrite]
    rfl
  · intro path hpath
    have hkept := hbeside.trans (hagrees _ hmem)
    exact hkept.read? hlacks.workingDirectory (hnew.paths path hpath)
  · intro report
    obtain ⟨after, hsummary, -⟩ := hholds.exists_write? isFileName_summary (by decide)
      report.toJson.render.toUTF8
    exact ⟨after, run_writeRecord hsummary⟩

namespace ConversionPlan

variable {runDirectory : Option Path}

/-- The directory of the record can be made, and the tree in which it is to stand. Without a record
there is nothing to make. -/
def makeRoom (runDirectory : Option Path) (tree : FileTree) : Bool × FileTree :=
  runDirectory.elim (true, tree) tree.makeDirectories

/-- What a plan comes to before the document is written. -/
def forecast (plan : ConversionPlan) (runDirectory : Option Path) (tree : FileTree) :
    Except CommandError Conversion :=
  match makeRoom runDirectory tree with
  | (false, _) => .error .registry
  | (true, between) => do
      let source ← ((between.read? plan.input).bind String.fromUTF8?).elim
        (.error (.read plan.input)) .ok
      (plan.convert source).mapError .convert

theorem run_openRecord_of_false (hnew : ∀ parent ∈ runDirectory, stamp.IsNewFor tree paths)
    (h : makeRoom runDirectory tree = (false, after)) :
    (plan.openRecord stamp runDirectory).run.run tree = (.error .registry, after) := by
  cases runDirectory with
  | none => cases h
  | some parent =>
      rw [openRecord, map_eq_pure_bind, FileScript.run_andThen,
        run_startRecord_of_false (hnew parent rfl) h]

/-- A record that is begun can be completed. The source is what it is without the record. -/
theorem exists_run_openRecord (hnew : ∀ parent ∈ runDirectory, stamp.IsNewFor tree paths)
    (hparent : ∀ parent ∈ runDirectory, parent ∈ paths)
    (h : makeRoom runDirectory tree = (true, after)) :
    ∃ opened, (plan.openRecord stamp runDirectory).run.run tree =
        (.ok (record stamp runDirectory), opened) ∧
      (∀ path ∈ paths, opened.read? path = after.read? path) ∧
      ∀ report, ∃ closed,
        (closeRecord report (record stamp runDirectory)).run.run opened = (.ok (), closed) := by
  cases runDirectory with
  | none =>
      cases h
      exact ⟨tree, rfl, fun _ _ => rfl, fun _ => ⟨tree, rfl⟩⟩
  | some parent =>
      obtain ⟨opened, hstart, hread, hfinish⟩ :=
        exists_run_startRecord (hnew parent rfl) (hparent parent rfl) h
      refine ⟨opened, ?_, hread, hfinish⟩
      rw [openRecord, map_eq_pure_bind, FileScript.run_andThen, hstart]
      rfl

/-- A document that cannot be written is a failure of the workspace. -/
theorem kind_of_writeDocument {document : String}
    (h : (plan.writeDocument document).run.run tree = (.error error, after)) :
    error.kind = .workspace := by
  unfold writeDocument at h
  split_ifs at h
  · cases h
  · rw [FileScript.run_adapt] at h
    obtain ⟨hresult, -⟩ := Prod.mk.inj h
    cases hwrite : ((writeAtomically plan.output document.toUTF8).run.run tree).1 with
    | error cause =>
        rw [hwrite] at hresult
        cases hresult
        rfl
    | ok =>
        rw [hwrite] at hresult
        cases hresult

/-- What is left to do once the source has been converted. -/
def complete (plan : ConversionPlan) (conversion : Conversion) (record : Option Path) :
    ExceptT CommandError FileScript String := do
  plan.writeDocument conversion.document
  closeRecord conversion.report record
  return plan.announcement conversion.report

/-- A forecast that fails tells how the run fails. -/
theorem run_perform_of_forecast_error
    (hnew : ∀ parent ∈ runDirectory, stamp.IsNewFor tree paths)
    (hparent : ∀ parent ∈ runDirectory, parent ∈ paths) (hinput : plan.input ∈ paths)
    (h : plan.forecast runDirectory tree = .error error) :
    ((plan.perform stamp runDirectory).run.run tree).1 = .error error := by
  rw [forecast] at h
  rw [perform_eq, FileScript.run_andThen]
  rcases hprepared : makeRoom runDirectory tree with ⟨_ | _, between⟩
  · rw [hprepared] at h
    cases h
    rw [run_openRecord_of_false hnew hprepared]
  · obtain ⟨opened, hopen, hread, -⟩ := exists_run_openRecord hnew hparent hprepared
    rw [hprepared] at h
    rw [hopen]
    dsimp only at h ⊢
    rw [← hread plan.input hinput] at h
    rw [FileScript.run_andThen, FileScript.run_readTextOr]
    cases hsource : (opened.read? plan.input).bind String.fromUTF8? with
    | none =>
        rw [hsource] at h
        cases h
        rfl
    | some source =>
        rw [hsource] at h
        dsimp only [Option.elim]
        change (plan.convert source).mapError CommandError.convert = .error error at h
        rw [FileScript.run_andThen, FileScript.run_liftExcept, h]

/-- A forecast that succeeds leaves the document to be written, and the record to be completed. -/
theorem exists_run_perform_of_forecast
    (hnew : ∀ parent ∈ runDirectory, stamp.IsNewFor tree paths)
    (hparent : ∀ parent ∈ runDirectory, parent ∈ paths) (hinput : plan.input ∈ paths)
    (h : plan.forecast runDirectory tree = .ok conversion) :
    ∃ opened, (plan.perform stamp runDirectory).run.run tree =
        (plan.complete conversion (record stamp runDirectory)).run.run opened ∧
      ∀ report, ∃ closed,
        (closeRecord report (record stamp runDirectory)).run.run opened = (.ok (), closed) := by
  rw [forecast] at h
  rcases hprepared : makeRoom runDirectory tree with ⟨_ | _, between⟩
  · rw [hprepared] at h
    cases h
  · obtain ⟨opened, hopen, hread, hclose⟩ := exists_run_openRecord hnew hparent hprepared
    refine ⟨opened, ?_, hclose⟩
    rw [hprepared] at h
    rw [perform_eq, FileScript.run_andThen, hopen]
    dsimp only at h ⊢
    rw [← hread plan.input hinput] at h
    obtain ⟨source, hsource, hconvert⟩ := bind_eq_ok_iff.mp h
    rw [FileScript.run_andThen, FileScript.run_readTextOr, hsource]
    dsimp only
    rw [FileScript.run_andThen, FileScript.run_liftExcept, hconvert]
    rfl

/-- A dry run only completes its record. -/
theorem run_complete_of_dryRun {directory : Option Path} (hdry : plan.dryRun = true)
    (h : (closeRecord conversion.report directory).run.run tree = (.ok (), after)) :
    (plan.complete conversion directory).run.run tree =
      (.ok (plan.announcement conversion.report), after) := by
  rw [complete, writeDocument, if_pos hdry, pure_bind, FileScript.run_andThen, h]
  rfl

/-- Once the source has been converted, a run can only fail to write. -/
theorem run_complete (plan : ConversionPlan) (conversion : Conversion) (directory : Option Path)
    (tree : FileTree) :
    ((plan.complete conversion directory).run.run tree).1 =
        .ok (plan.announcement conversion.report) ∨
      ∃ error, ((plan.complete conversion directory).run.run tree).1 = .error error ∧
        error.kind ∈ [FailureKind.workspace, .registry] := by
  rw [complete, FileScript.run_andThen]
  rcases hwrite : (plan.writeDocument conversion.document).run.run tree with
    ⟨failure | _, written⟩
  · refine Or.inr ⟨failure, rfl, ?_⟩
    rw [kind_of_writeDocument hwrite]
    exact List.mem_cons_self
  · dsimp only
    rw [FileScript.run_andThen]
    rcases hclose : (closeRecord conversion.report directory).run.run written with
      ⟨failure | _, closed⟩
    · refine Or.inr ⟨failure, rfl, ?_⟩
      rw [eq_registry_of_closeRecord hclose]
      decide
    · exact Or.inl rfl

/-! ### Runs with and without the switch -/

/-- The same plan for a run that is dry or not. -/
def withDryRun (dryRun : Bool) (plan : ConversionPlan) : ConversionPlan :=
  { plan with dryRun }

/-- Whether the run is dry makes no difference to what comes before the document. -/
theorem forecast_withDryRun (dryRun : Bool) (plan : ConversionPlan) (runDirectory : Option Path)
    (tree : FileTree) :
    (plan.withDryRun dryRun).forecast runDirectory tree = plan.forecast runDirectory tree := rfl

end ConversionPlan

namespace ConvertArguments

variable {arguments : ConvertArguments}

/-- Where the source of a conversion is, as far as arguments and settings can tell. -/
def inputIn? (arguments : ConvertArguments) (tree : FileTree) : Option Path :=
  arguments.input <|>
    ((Settings.load arguments.config).run.run tree).1.toOption.map (·.paths.input)

/-- The paths to which a conversion goes before its document is written. -/
def earlyPaths (arguments : ConvertArguments) (tree : FileTree) : List Path :=
  (arguments.inputIn? tree).toList ++ arguments.runDirectory.toList

/-- The plan that settings and arguments make, or why there is none. -/
def planIn (arguments : ConvertArguments) (tree : FileTree) :
    Except CommandError ConversionPlan := do
  let settings ← ((Settings.load arguments.config).run.run tree).1.mapError .settings
  (arguments.plan settings).mapError .invalidConfig

theorem run_performConvert (stamp : RunStamp) (arguments : ConvertArguments) (tree : FileTree) :
    (performConvert stamp arguments).run.run tree =
      match arguments.planIn tree with
      | .error error => (.error error, tree)
      | .ok plan => (plan.perform stamp arguments.runDirectory).run.run tree := by
  have hkept := snd_run_load arguments.config tree
  rw [performConvert, FileScript.run_andThen, FileScript.run_adapt, hkept, planIn]
  cases ((Settings.load arguments.config).run.run tree).1 with
  | error error => rfl
  | ok settings =>
      change ((liftM ((arguments.plan settings).mapError CommandError.invalidConfig) >>=
        fun plan => plan.perform stamp arguments.runDirectory).run.run tree) =
          match (arguments.plan settings).mapError CommandError.invalidConfig with
          | .error error => (.error error, tree)
          | .ok plan => (plan.perform stamp arguments.runDirectory).run.run tree
      rw [FileScript.run_andThen, FileScript.run_liftExcept]
      cases (arguments.plan settings).mapError CommandError.invalidConfig <;> rfl

theorem plan_withDryRun (dryRun : Bool) (arguments : ConvertArguments) (settings : Settings) :
    (arguments.withDryRun dryRun).plan settings =
      (arguments.plan settings).map (·.withDryRun dryRun) := by
  unfold ConvertArguments.plan
  dsimp only [withDryRun, override]
  split_ifs <;> rfl

theorem planIn_withDryRun (dryRun : Bool) (arguments : ConvertArguments) (tree : FileTree) :
    (arguments.withDryRun dryRun).planIn tree =
      (arguments.planIn tree).map (·.withDryRun dryRun) := by
  apply bind_eq_map_bind
  intro settings
  rw [plan_withDryRun]
  cases arguments.plan settings <;> rfl

theorem input_of_plan {settings : Settings} (h : arguments.plan settings = .ok plan) :
    plan.input = arguments.input.getD settings.paths.input := by
  unfold ConvertArguments.plan at h
  dsimp only at h
  split_ifs at h
  cases h
  rfl

/-- The paths of a plan are those that settings and arguments tell. -/
theorem paths_of_planIn (h : arguments.planIn tree = .ok plan) :
    arguments.inputIn? tree = some plan.input ∧ arguments.outputIn? tree = some plan.output ∧
      plan.dryRun = arguments.dryRun := by
  obtain ⟨settings, hsettings, hplan⟩ := bind_eq_ok_iff.mp h
  rw [mapError_eq_ok_iff] at hsettings hplan
  obtain ⟨houtput, hdry⟩ := plan_eq_ok hplan
  refine ⟨?_, ?_, hdry⟩
  · rw [inputIn?, hsettings, input_of_plan hplan]
    cases arguments.input <;> rfl
  · rw [outputIn?, hsettings, houtput]
    cases arguments.output <;> rfl

end ConvertArguments

/-- The outcome of a dry run tells that of the run, as far as it can be told: which arguments are
not understood, how the run fails, and what it tells when it succeeds. What is left open is whether
the document and the record can be written. -/
structure Outcome.Foretells (output? : Option Path) (dry real : Outcome) : Prop where
  misuse : ∀ error, dry = .misuse error ↔ real = .misuse error
  failure : ∀ error, dry = .failure error → real = .failure error
  success : ∀ told, dry = .success told →
    (∃ output ∈ output?, real = .success (told ++ "\nOutput: " ++ output.text ++ "\n")) ∨
      ∃ error, real = .failure error ∧ error.kind ∈ [FailureKind.workspace, .registry]

namespace Outcome

variable {output? : Option Path}

theorem foretells_misuse (error : UsageError) :
    Foretells output? (.misuse error) (.misuse error) where
  misuse _ := Iff.rfl
  failure _ h := by cases h
  success _ h := by cases h

theorem foretells_failure (error : CommandError) :
    Foretells output? (.failure error) (.failure error) where
  misuse _ := Iff.rfl
  failure _ h := h
  success _ h := by cases h

/-- A run with an announcement is foretold by the dry run with the same report. -/
theorem foretells_announcement {result : Except CommandError String} {report : ConversionReport}
    (hoff : plan.dryRun = false)
    (h : result = .ok (plan.announcement report) ∨
      ∃ error, result = .error error ∧ error.kind ∈ [FailureKind.workspace, .registry]) :
    Foretells (some plan.output) (.success ((plan.withDryRun true).announcement report))
      (.ofResult result) := by
  constructor
  case misuse =>
    intro error
    rcases h with rfl | ⟨_, rfl, -⟩ <;> constructor <;> intro himpossible <;> cases himpossible
  case failure =>
    intro error himpossible
    cases himpossible
  case success =>
    intro told htold
    cases htold
    rcases h with rfl | ⟨error, rfl, hkind⟩
    · refine Or.inl ⟨plan.output, rfl, ?_⟩
      simp only [ofResult, ConversionPlan.announcement, ConversionPlan.withDryRun, hoff, if_true,
        Bool.false_eq_true, if_false, String.append_empty, String.append_assoc]
    · exact Or.inr ⟨error, rfl, hkind⟩

end Outcome

/-! ### Runs of the program -/

/-- A dry conversion foretells the conversion. -/
theorem foretells_performConvert {dryStamp : RunStamp} {arguments : ConvertArguments}
    (hoff : arguments.dryRun = false)
    (hdryNew : ∀ parent ∈ arguments.runDirectory,
      dryStamp.IsNewFor tree (arguments.earlyPaths tree))
    (hnew : ∀ parent ∈ arguments.runDirectory, stamp.IsNewFor tree (arguments.earlyPaths tree)) :
    Outcome.Foretells (arguments.outputIn? tree)
      (.ofResult ((performConvert dryStamp (arguments.withDryRun true)).run.run tree).1)
      (.ofResult ((performConvert stamp arguments).run.run tree).1) := by
  rw [ConvertArguments.run_performConvert, ConvertArguments.run_performConvert,
    ConvertArguments.planIn_withDryRun]
  cases hplan : arguments.planIn tree with
  | error error => exact Outcome.foretells_failure error
  | ok plan =>
      obtain ⟨hin, hout, hdry⟩ := ConvertArguments.paths_of_planIn hplan
      have hinput : plan.input ∈ arguments.earlyPaths tree := by
        rw [ConvertArguments.earlyPaths, hin]
        exact List.mem_cons_self
      have hparent : ∀ parent ∈ arguments.runDirectory, parent ∈ arguments.earlyPaths tree := by
        intro parent hparent
        exact List.mem_append_right _ (Option.mem_toList.mpr hparent)
      rw [hout]
      change Outcome.Foretells (some plan.output)
        (.ofResult (((plan.withDryRun true).perform dryStamp arguments.runDirectory).run.run tree).1)
        (.ofResult ((plan.perform stamp arguments.runDirectory).run.run tree).1)
      have hdryInput : (plan.withDryRun true).input ∈ arguments.earlyPaths tree := hinput
      have hdryForecast := plan.forecast_withDryRun true arguments.runDirectory tree
      cases hforecast : plan.forecast arguments.runDirectory tree with
      | error error =>
          rw [ConversionPlan.run_perform_of_forecast_error hnew hparent hinput hforecast,
            ConversionPlan.run_perform_of_forecast_error hdryNew hparent hdryInput
              (hdryForecast.trans hforecast)]
          exact Outcome.foretells_failure error
      | ok conversion =>
          obtain ⟨dryOpened, hdryRun, hclose⟩ :=
            ConversionPlan.exists_run_perform_of_forecast hdryNew hparent hdryInput
              (hdryForecast.trans hforecast)
          obtain ⟨opened, hrun, -⟩ :=
            ConversionPlan.exists_run_perform_of_forecast hnew hparent hinput hforecast
          obtain ⟨closed, hclosed⟩ := hclose conversion.report
          rw [hdryRun, hrun, ConversionPlan.run_complete_of_dryRun rfl hclosed]
          exact Outcome.foretells_announcement (hdry.trans hoff) (plan.run_complete _ _ _)

/-- A conversion with these words gets a new directory for its record, if it is to be recorded. -/
def RunStamp.RecordsAnew (stamp : RunStamp) (words : List String) (tree : FileTree) : Prop :=
  ∀ arguments, ConvertArguments.read words = .ok arguments →
    ∀ parent ∈ arguments.runDirectory, stamp.IsNewFor tree (arguments.earlyPaths tree)

theorem runProgram_help {words : List String} (h : ConvertArguments.read words = .error .help)
    (stamp : RunStamp) (tree : FileTree) :
    (runProgram stamp ("convert" :: words)).run tree =
      (.success HelpTopic.convert.text, tree) := by
  rw [runProgram, invocation_read_convert, h]
  rfl

theorem runProgram_convert_misuse {words : List String} {error : UsageError}
    (h : ConvertArguments.read words = .error (.misuse error)) (stamp : RunStamp)
    (tree : FileTree) : ((runProgram stamp ("convert" :: words)).run tree).1 = .misuse error := by
  rw [runProgram_misuse (by rw [invocation_read_convert, h]; rfl)]

/-- A stamp for a dry run. -/
def dryStamp : RunStamp where
  id := "fedcba9876543210fedcba9876543210"
  startedAt := ⟨60, 0⟩

/-- The words that ask for a conversion with a record, in front of the switch and behind it. -/
def recordedWords : List String × List String :=
  (["--input", "schema.ts"], ["--output", "schema.prisma", "--run-dir", "runs"])

end TableModels
