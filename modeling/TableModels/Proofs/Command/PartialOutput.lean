import TableModels.Proofs.Command.SourceDocument
import TableModels.Proofs.Command.Switches
import TableModels.Proofs.Files.ChangedPaths
import TableModels.Proofs.Files.PathPlaces

/-!
# Conversions that stop

A conversion that stops before its target document is in place leaves no part of it behind. What
may have changed are the two files of the record of the run and the temporary file of the atomic
write. The record has a directory of its own, whose name is new, and the temporary file stands
beside the target.

## Implementation notes

A failure to record the run is left out: the record is completed after the document has been
written, so such a failure may come too late. Dry runs write no document, and so all their failures
are included.
-/

namespace TableModels

variable {stamp : RunStamp} {plan : ConversionPlan} {tree between after : FileTree}

/-! ### Names of records -/

variable {c : Char}

theorem notMem_paddedDecimal (h : c.isDigit = false) (width n : Nat) :
    c ∉ (paddedDecimal width n).toList := by
  rw [paddedDecimal, zeroPadded, Nat.toString_eq_repr, String.toList_append, List.mem_append,
    not_or]
  constructor
  · rw [String.toList_ofList, List.mem_replicate]
    rintro ⟨-, rfl⟩
    exact absurd h (by decide)
  · intro hmem
    rw [Document.isDigit_of_mem_repr hmem] at h
    cases h

/-- A label is made of digits and of a few marks. -/
theorem Moment.notMem_label (h : c.isDigit = false) (hmarks : c ∉ "-TZ".toList)
    (moment : Moment) : c ∉ moment.label.toList := by
  obtain ⟨hdash, htime, hzone⟩ : c ∉ "-".toList ∧ c ∉ "T".toList ∧ c ∉ "Z".toList := by
    simpa using hmarks
  simp only [label, date, time, String.intercalate_cons_cons, String.intercalate_singleton,
    String.toList_append, List.mem_append, notMem_paddedDecimal h, hdash, htime, hzone, or_self,
    not_false_eq_true]

theorem RunStamp.notMem_directoryName (h : c.isDigit = false) (hmarks : c ∉ "-TZ".toList)
    (hmiddle : c ∉ "__convert_".toList) (hid : c ∉ stamp.id.toList) :
    c ∉ stamp.directoryName.toList := by
  simp only [directoryName, String.toList_append, List.mem_append, not_or, String.toList_ofList]
  exact ⟨⟨stamp.startedAt.notMem_label h hmarks, hmiddle⟩,
    fun hmem => hid (List.mem_of_mem_take hmem)⟩

theorem RunStamp.isPathPart_directoryName (hid : '/' ∉ stamp.id.toList) :
    IsPathPart stamp.directoryName ∧ stamp.directoryName ≠ ".." ∧ stamp.directoryName ≠ "." := by
  have hlong : ∀ other : String, other.length < 10 → stamp.directoryName ≠ other := by
    rintro other hother rfl
    rw [directoryName, String.length_append, String.length_append] at hother
    have hmiddle : "__convert_".length = 10 := rfl
    omega
  exact ⟨⟨hlong "" (by decide), notMem_directoryName rfl (by decide) (by decide) hid⟩,
    hlong ".." (by decide), hlong "." (by decide)⟩

/-- The directory of the record has a name that is new: nothing in the tree goes by it, and no part
of the path does. It is one name, because there is no slash in an identifier. -/
structure RunStamp.IsFreshFor (stamp : RunStamp) (tree : FileTree) (output? : Option Path) :
    Prop where
  id : '/' ∉ stamp.id.toList
  nodes : ∀ entry ∈ tree.nodes, stamp.directoryName ∉ entry.1
  workingDirectory : stamp.directoryName ∉ tree.workingDirectory
  output : ∀ output ∈ output?, stamp.directoryName ∉ output.segments

/-! ### Steps -/

/-- A run ends before its document is in place: it is dry, or it fails, and not for want of a
record. -/
def Stops (dryRun : Bool) (result : Except CommandError String) : Prop :=
  dryRun = true ∨ ∃ error, result = .error error ∧ error.kind ≠ .registry

namespace ConversionPlan

/-- The files of the record of a run. -/
def recordFiles (stamp : RunStamp) (runDirectory : Option Path) : List Path :=
  (record stamp runDirectory).toList.flatMap fun directory =>
    [directory.child "config.json", directory.child "summary.json"]

/-- The paths that a conversion which stops may have written. -/
def looseFiles (plan : ConversionPlan) (stamp : RunStamp) (runDirectory : Option Path) :
    List Path :=
  recordFiles stamp runDirectory ++ (temporaryPath? plan.output).toList

end ConversionPlan

theorem changesOnly_of_writeRecord {path : Path} {record : Json}
    {result : Except CommandError Unit}
    (h : (writeRecord path record).run.run tree = (result, after)) :
    tree.ChangesOnly [path] after := by
  apply FileScript.changesOnly_andThen h (FileScript.changesOnly_writeFile path _ tree)
  intro written between _ hrest
  cases written <;> cases hrest <;> exact .refl _ _

/-- A record fails only as a record. -/
theorem eq_registry_of_writeRecord {path : Path} {record : Json} {error : CommandError}
    (h : (writeRecord path record).run.run tree = (.error error, after)) : error = .registry := by
  rw [writeRecord, FileScript.run_andThen, FileScript.run_liftM] at h
  dsimp only at h
  split_ifs at h
  · cases h
  · cases h
    rfl

theorem changesOnly_of_startRecord {runDirectory : Path} {result : Except CommandError Path}
    (h : (startRecord stamp plan runDirectory).run.run tree = (result, after)) :
    tree.ChangesOnly [(runDirectory.child stamp.directoryName).child "config.json"] after := by
  rw [startRecord] at h
  apply FileScript.changesOnly_andThen h (FileScript.changesOnly_makeDirectories _ tree _)
  intro made prepared _ hrest
  dsimp only at hrest
  cases made with
  | false =>
      cases hrest
      exact .refl _ _
  | true =>
      rw [if_pos rfl] at hrest
      apply FileScript.changesOnly_andThen hrest (changesOnly_of_writeRecord rfl)
      intro _ _ _ hrest
      cases hrest
      exact .refl _ _

namespace ConversionPlan

variable {runDirectory : Option Path}

theorem changesOnly_of_openRecord {result : Except CommandError (Option Path)}
    (h : (plan.openRecord stamp runDirectory).run.run tree = (result, after)) :
    tree.ChangesOnly (recordFiles stamp runDirectory) after := by
  cases runDirectory with
  | none =>
      cases h
      exact .refl tree _
  | some parent =>
      rw [openRecord, map_eq_pure_bind] at h
      have hstarts := changesOnly_of_startRecord
        (show (startRecord stamp plan parent).run.run tree = (_, _) from rfl)
      apply FileScript.changesOnly_andThen h
      · exact hstarts.mono (by simp [recordFiles, record])
      · intro directory between _ hrest
        cases hrest
        exact .refl _ _

theorem changesOnly_of_closeRecord {report : ConversionReport}
    {result : Except CommandError Unit}
    (h : (closeRecord report (record stamp runDirectory)).run.run tree = (result, after)) :
    tree.ChangesOnly (recordFiles stamp runDirectory) after := by
  cases runDirectory with
  | none =>
      cases h
      exact .refl tree _
  | some parent =>
      apply (changesOnly_of_writeRecord h).mono
      simp [recordFiles, record]

theorem eq_registry_of_closeRecord {report : ConversionReport} {directory : Option Path}
    {error : CommandError}
    (h : (closeRecord report directory).run.run tree = (.error error, after)) :
    error = .registry := by
  cases directory with
  | none => cases h
  | some directory => exact eq_registry_of_writeRecord h

/-- A document that cannot be written leaves no more than its temporary file. -/
theorem changesOnly_of_writeDocument_error {document : String} {error : CommandError}
    (h : (plan.writeDocument document).run.run tree = (.error error, after)) :
    tree.ChangesOnly (temporaryPath? plan.output).toList after := by
  unfold writeDocument at h
  split_ifs at h
  · cases h
  · obtain ⟨cause, hcause⟩ := FileScript.exists_run_of_run_adapt_error h
    exact changesOnly_of_writeAtomically_error hcause

/-- What is left of a run once its source has been converted: the document and its record. -/
theorem changesOnly_of_finish {conversion : Conversion} {result : Except CommandError String}
    (h : (plan.writeDocument conversion.document >>= fun _ => do
      closeRecord conversion.report (record stamp runDirectory)
      return plan.announcement conversion.report).run.run tree = (result, after))
    (hstops : Stops plan.dryRun result) :
    tree.ChangesOnly (plan.looseFiles stamp runDirectory) after := by
  by_cases hdry : plan.dryRun = true
  · rw [writeDocument, if_pos hdry] at h
    apply FileScript.changesOnly_andThen h (.refl tree _)
    intro _ between _ hclose
    apply FileScript.changesOnly_andThen hclose
    · exact (changesOnly_of_closeRecord rfl).mono (List.subset_append_left _ _)
    · intro _ closed _ hrest
      cases hrest
      exact .refl _ _
  · obtain ⟨error, rfl, hkind⟩ := hstops.resolve_left hdry
    rw [FileScript.run_andThen] at h
    rcases hwrite : (plan.writeDocument conversion.document).run.run tree with
      ⟨failure | _, written⟩
    · rw [hwrite] at h
      cases h
      exact (changesOnly_of_writeDocument_error hwrite).mono (List.subset_append_right _ _)
    · -- only the record can fail once the document is in place
      rw [hwrite] at h
      dsimp only at h
      rw [FileScript.run_andThen] at h
      rcases hclose : (closeRecord conversion.report (record stamp runDirectory)).run.run written
        with ⟨failure | _, closed⟩
      · rw [hclose] at h
        cases h
        exact absurd (congrArg CommandError.kind (eq_registry_of_closeRecord hclose)) hkind
      · rw [hclose] at h
        cases h

/-- A run that stops changes nothing but its record and the temporary file of the document. -/
theorem changesOnly_of_perform {result : Except CommandError String}
    (h : (plan.perform stamp runDirectory).run.run tree = (result, after))
    (hstops : Stops plan.dryRun result) :
    tree.ChangesOnly (plan.looseFiles stamp runDirectory) after := by
  rw [perform_eq] at h
  apply FileScript.changesOnly_andThen h
  · exact (changesOnly_of_openRecord rfl).mono (List.subset_append_left _ _)
  intro directory opened hopen hread
  obtain ⟨rfl, -⟩ := undergoes_of_openRecord hopen
  apply FileScript.changesOnly_andThen hread
  · rw [FileScript.run_readTextOr]
    exact .refl opened _
  intro source _ hsource hconvert
  obtain ⟨-, rfl⟩ := FileScript.run_readTextOr_ok_iff.1 hsource
  apply FileScript.changesOnly_andThen hconvert (.refl _ _)
  intro conversion _ hconverted hfinish
  rw [FileScript.run_liftExcept] at hconverted
  obtain ⟨-, rfl⟩ := Prod.mk.inj hconverted
  exact changesOnly_of_finish hfinish hstops

end ConversionPlan

/-! ### Files that are spared -/

/-- Every file keeps its content, except the temporary file of the output. At the output there is
what there was, so no file has come to be there. -/
structure FileTree.Spares (tree after : FileTree) (output? : Option Path) : Prop where
  kept : ∀ place content, tree.content? place = some content →
    (∀ temporary ∈ output?.bind temporaryPath?, after.locate? temporary ≠ some place) →
      after.content? place = some content
  output : ∀ output ∈ output?, ∀ place, after.locate? output = some place →
    after.content? place = tree.content? place

theorem FileTree.Spares.refl (tree : FileTree) (output? : Option Path) :
    tree.Spares tree output? :=
  ⟨fun _ _ hcontent _ => hcontent, fun _ _ _ _ => rfl⟩

theorem RunStamp.IsFreshFor.content?_eq_none {output? : Option Path} {place : Place}
    (hfresh : stamp.IsFreshFor tree output?) (h : stamp.directoryName ∈ place) :
    tree.content? place = none := by
  rw [FileTree.content?, FileTree.node?]
  split_ifs
  · rfl
  · have hlookup : tree.nodes.lookup place = none := by
      rw [List.lookup_eq_none_iff]
      rintro entry hentry
      rw [bne_iff_ne]
      rintro rfl
      exact hfresh.nodes entry hentry h
    rw [hlookup]
    rfl

namespace ConversionPlan

variable {runDirectory : Option Path} {result : Except CommandError String} {path : Path}
  {place : Place}

/-- The files of the record have the name of the record in their places. -/
theorem directoryName_mem_of_recordFiles (hid : '/' ∉ stamp.id.toList)
    (hpath : path ∈ recordFiles stamp runDirectory) (h : tree.locate? path = some place) :
    stamp.directoryName ∈ place := by
  obtain ⟨hname, hup, hdot⟩ := RunStamp.isPathPart_directoryName hid
  obtain ⟨directory, hdirectory, hfile⟩ := List.mem_flatMap.mp hpath
  obtain ⟨parent, -, rfl⟩ := Option.map_eq_some_iff.mp (Option.mem_toList.mp hdirectory)
  rcases List.mem_pair.mp hfile with rfl | rfl
  · exact FileTree.mem_of_locate?_child hname hup hdot ⟨by decide, by decide⟩ (by decide) h
  · exact FileTree.mem_of_locate?_child hname hup hdot ⟨by decide, by decide⟩ (by decide) h

/-- A run that stops spares the files, because all that it writes is new or temporary. -/
theorem spares_of_perform (hfresh : stamp.IsFreshFor tree (some plan.output))
    (h : (plan.perform stamp runDirectory).run.run tree = (result, after))
    (hstops : Stops plan.dryRun result) : tree.Spares after (some plan.output) := by
  have hchanges := changesOnly_of_perform h hstops
  constructor
  · intro place content hcontent htemporary
    rw [← hcontent]
    apply hchanges.content?
    intro path hpath hleads
    rcases List.mem_append.mp hpath with hrecord | htemp
    · have hmem := directoryName_mem_of_recordFiles hfresh.id hrecord hleads
      rw [hfresh.content?_eq_none hmem] at hcontent
      cases hcontent
    · exact htemporary path (Option.mem_toList.mp htemp) hleads
  · intro output houtput place hplace
    cases houtput
    apply hchanges.content?
    intro path hpath hleads
    rcases List.mem_append.mp hpath with hrecord | htemp
    · have hmem := directoryName_mem_of_recordFiles hfresh.id hrecord hleads
      rcases FileTree.mem_of_locate? hplace _ hmem with hworking | hsegment
      · rw [hchanges.workingDirectory] at hworking
        exact hfresh.workingDirectory hworking
      · exact hfresh.output _ rfl hsegment
    · exact FileTree.locate?_temporary_ne (Option.mem_toList.mp htemp) hplace hleads

end ConversionPlan

/-! ### Runs of the program -/

namespace ConvertArguments

variable {arguments : ConvertArguments} {result : Except CommandError String}

/-- Where the document of a conversion goes, as far as arguments and settings can tell. -/
def outputIn? (arguments : ConvertArguments) (tree : FileTree) : Option Path :=
  arguments.output <|>
    ((Settings.load arguments.config).run.run tree).1.toOption.map (·.paths.output)

theorem plan_eq_ok {settings : Settings} (h : arguments.plan settings = .ok plan) :
    plan.output = arguments.output.getD settings.paths.output ∧
      plan.dryRun = arguments.dryRun := by
  unfold ConvertArguments.plan at h
  dsimp only at h
  split_ifs at h
  cases h
  exact ⟨rfl, rfl⟩

theorem spares_of_performConvert (hfresh : stamp.IsFreshFor tree (arguments.outputIn? tree))
    (h : (performConvert stamp arguments).run.run tree = (result, after))
    (hstops : Stops arguments.dryRun result) :
    tree.Spares after (arguments.outputIn? tree) := by
  rw [performConvert, FileScript.run_andThen] at h
  rcases hload : ((Settings.load arguments.config).adapt CommandError.settings).run.run tree with
    ⟨failure | settings, between⟩
  · obtain ⟨cause, hcause⟩ := FileScript.exists_run_of_run_adapt_error hload
    obtain rfl : between = tree := by simpa [hcause] using snd_run_load arguments.config tree
    rw [hload] at h
    cases h
    exact .refl _ _
  · have hsettings := FileScript.run_adapt_ok_iff.1 hload
    obtain rfl : between = tree := by simpa [hsettings] using snd_run_load arguments.config tree
    rw [hload] at h
    dsimp only at h
    rw [FileScript.run_andThen, FileScript.run_liftExcept] at h
    cases hplan : arguments.plan settings with
    | error error =>
        rw [hplan] at h
        cases h
        exact .refl _ _
    | ok plan =>
        rw [hplan] at h
        obtain ⟨houtput, hdry⟩ := plan_eq_ok hplan
        have hout : arguments.outputIn? between = some plan.output := by
          rw [outputIn?, hsettings, houtput]
          cases arguments.output <;> rfl
        rw [hout] at hfresh ⊢
        exact ConversionPlan.spares_of_perform hfresh h (hdry ▸ hstops)

end ConvertArguments

/-- Where the document goes when these words follow the name of the command. -/
def outputOf? (words : List String) (tree : FileTree) : Option Path :=
  (ConvertArguments.read words).toOption.bind (·.outputIn? tree)

theorem invocation_read_convert (words : List String) :
    Invocation.read ("convert" :: words) =
      Invocation.ofReading .convert .convert (ConvertArguments.read words) := rfl

/-- A source document that is not there, an output that is, and a record. -/
def missingSourceWords : List String :=
  ["--input", "gone.ts", "--output", "schema.ts", "--run-dir", "runs"]

end TableModels
