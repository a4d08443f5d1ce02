import CallManual.Proofs.CommandLine.ResultFile
import CallManual.Proofs.Host.Machine
import CallManual.Proofs.Host.Writing
import CallManual.Proofs.Page.Directory
import CallManual.Proofs.Resolution.Lookup

/-!
# From one command to the next

On a described machine a batch leaves its report in the file it was given, or adds it to the output
like a lookup its resolutions. What is left there is what the check of availability takes its call
names from: those of the report or of the resolutions, in their order.
-/
namespace CallManual.CommandLine

variable {programs : Machine.Programs} {processors : ℕ} {s s' : Machine} {p : Path} {t : Text}
  {rs : List Resolution} {files : Tree} {pagesDir namesFile : Option Path} {settings : Settings}
  {callNames : List Text}

theorem run_definitionNames (hread : s.files.read s.directory p = .ok (Text.toUtf8 t))
    (ht : Report.resolutionsIn? t = some rs) :
    (definitionNames (Machine.host programs processors) p).run s =
      (.ok (rs.map Resolution.callName), s) := by
  have htext : s.files.readText s.directory p = .ok t :=
    Tree.readText_eq_ok_iff.mpr ⟨_, hread, Text.ofUtf8?_toUtf8 t⟩
  rw [definitionNames, StateT.run_bind, PageDirectory.run_readText, htext]
  dsimp only [bind]
  rw [ht]
  rfl

theorem run_batchNames (s : Machine) (namesFile pagesDir : Option Path) (settings : Settings) :
    ((batchNames (Machine.host programs processors) namesFile pagesDir settings).run s).2 = s := by
  unfold batchNames
  cases namesFile with
  | some p =>
    rw [StateT.run_bind, PageDirectory.run_readText]
    cases s.files.readText s.directory p <;> rfl
  | none => cases pagesDir <;> rfl

/-- What a batch does once its call names are known. -/
theorem run_runBatch {log : Logger (StateM Machine)} {output : Option Path} :
    let host := Machine.host programs processors
    let r := Resolver.ofSource host (pageSource pagesDir settings) settings.lookup.joinLimit
    ((batchNames host namesFile pagesDir settings).run s).1 = .ok callNames →
      (runBatch host log pagesDir settings namesFile output).run s =
        (do
          let report ← r.lookupAll log (settings.lookup.workers processors) callNames
          writeResult host log output report.toJson.pretty).run s := by
  intro host r hnames
  have hbatch : (batchNames host namesFile pagesDir settings).run s = (.ok callNames, s) :=
    Prod.ext hnames (run_batchNames s namesFile pagesDir settings)
  rw [runBatch, StateT.run_bind, hbatch]
  rfl

/-! ## Into a file -/

/-- A result that can be written ends the task well and is what is read at its path. -/
theorem run_writeResult_file (programs : Machine.Programs) (processors : ℕ)
    (threshold : LogLevel)
    (hwrite : s.files.write s.directory p (Text.toUtf8 t) = .ok files) :
    let host := Machine.host programs processors
    ∃ s', (writeResult host (Logger.ofHost host threshold none) (some p) t).run s = (.success, s') ∧
      s'.files.read s'.directory p = .ok (Text.toUtf8 t) := by
  intro host
  have hrun : (host.write p t).run s = (.ok (), { s with files }) := by
    change Machine.change (fun files d => files.write d p (Text.toUtf8 t)) s = _
    simp only [Machine.change, hwrite]
  let log := Logger.ofHost host threshold none
  let s' := ((log .info ("Wrote " ++ p)).run { s with files }).2
  obtain ⟨-, hfiles, hdirectory⟩ : True ∧ s'.files = files ∧ s'.directory = s.directory :=
    Machine.allows_log_of_files files s.directory threshold .info _ _ ⟨rfl, rfl⟩
  refine ⟨s', ?_, ?_⟩
  · rw [writeResult, StateT.run_bind, hrun]
    rfl
  · rw [hfiles, hdirectory]
    exact Tree.read_of_write hwrite

/-- A batch whose report can be written leaves a file from which the call names of the report are
read. -/
theorem definitionNames_of_runBatch (s : Machine) (threshold : LogLevel) (pagesDir : Option Path)
    (settings : Settings) (namesFile : Option Path) (p : Path) :
    let host := Machine.host programs processors
    let log := Logger.ofHost host threshold none
    let r := Resolver.ofSource host (pageSource pagesDir settings) settings.lookup.joinLimit
    let report := ((r.lookupAll log (settings.lookup.workers processors) callNames).run s).1
    ((batchNames host namesFile pagesDir settings).run s).1 = .ok callNames →
      s.files.write s.directory p (Text.toUtf8 report.toJson.pretty) = .ok files →
      ∃ s', (runBatch host log pagesDir settings namesFile (some p)).run s = (.success, s') ∧
        (definitionNames host p).run s' =
          (.ok (report.resolutions.map Resolution.callName), s') := by
  intro host log r report hnames hwrite
  let s₁ := ((r.lookupAll log (settings.lookup.workers processors) callNames).run s).2
  obtain ⟨-, hfiles, hdirectory⟩ : True ∧ s₁.files = s.files ∧ s₁.directory = s.directory :=
    Resolver.allows_lookupAll (Machine.allows_log_of_files s.files s.directory threshold)
      (PageSource.allows_fetch Machine.allows_read Machine.allows_run _) _ callNames s ⟨rfl, rfl⟩
  rw [← hfiles, ← hdirectory] at hwrite
  obtain ⟨s', hrun, hread⟩ := run_writeResult_file programs processors threshold hwrite
  have hresult : Report.resolutionsIn? report.toJson.pretty = some report.resolutions := by
    have hend := Report.resolutionsIn?_of_report (s := []) (by simp) report
    rwa [List.append_nil] at hend
  refine ⟨s', ?_, run_definitionNames hread hresult⟩
  rw [run_runBatch hnames]
  exact hrun

/-! ## To the output -/

/-- Something was added to the output, and these are the resolutions in it. -/
def Outputs (s s' : Machine) (rs : List Resolution) : Prop :=
  ∃ t, s'.output = s.output ++ t ∧ Report.resolutionsIn? t = some rs

/-- A file that holds what was added to the output gives the call names of the resolutions. -/
theorem Outputs.definitionNames (h : Outputs s s' rs) :
    ∃ t, s'.output = s.output ++ t ∧ ∀ (after : Machine) (p : Path),
      after.files.read after.directory p = .ok (Text.toUtf8 t) →
        (definitionNames (Machine.host programs processors) p).run after =
          (.ok (rs.map Resolution.callName), after) := by
  obtain ⟨t, houtput, ht⟩ := h
  exact ⟨t, houtput, fun after p hread => run_definitionNames hread ht⟩

theorem outputs_of_runLookup (s : Machine) (threshold : LogLevel) (file : Option Path)
    (source : PageSource) (joinLimit : ℕ) (callNames : List Text) :
    let host := Machine.host programs processors
    let log := Logger.ofHost host threshold file
    let r := Resolver.ofSource host source joinLimit
    Outputs s ((runLookup host log r callNames true).run s).2
      ((collectLookups log r callNames).run s).1.1 := by
  intro host log r
  obtain ⟨-, houtput⟩ : True ∧ ((collectLookups log r callNames).run s).2.output = s.output :=
    allows_collectLookups (Machine.allows_log_of_output s.output threshold)
      (PageSource.allows_fetch Machine.allows_read Machine.allows_run source) callNames s rfl
  rcases hrun : (collectLookups log r callNames).run s with ⟨⟨rs, defects⟩, s₁⟩
  rw [hrun] at houtput
  refine ⟨_, ?_, Report.resolutionsIn?_of_resolutions (by decide : ∀ c ∈ ['\n'], _) rs⟩
  rw [← houtput, runLookup, StateT.run_bind, hrun]
  cases defects <;> rfl

theorem outputs_of_runBatch (s : Machine) (threshold : LogLevel) (file pagesDir : Option Path)
    (settings : Settings) (namesFile : Option Path) :
    let host := Machine.host programs processors
    let log := Logger.ofHost host threshold file
    let r := Resolver.ofSource host (pageSource pagesDir settings) settings.lookup.joinLimit
    ((batchNames host namesFile pagesDir settings).run s).1 = .ok callNames →
      Outputs s ((runBatch host log pagesDir settings namesFile none).run s).2
        ((r.lookupAll log (settings.lookup.workers processors) callNames).run s).1.resolutions := by
  intro host log r hnames
  let s₁ := ((r.lookupAll log (settings.lookup.workers processors) callNames).run s).2
  obtain ⟨-, houtput⟩ : True ∧ s₁.output = s.output :=
    Resolver.allows_lookupAll (Machine.allows_log_of_output s.output threshold)
      (PageSource.allows_fetch Machine.allows_read Machine.allows_run _) _ callNames s rfl
  refine ⟨_, ?_, Report.resolutionsIn?_of_report (by decide : ∀ c ∈ ['\n'], _) _⟩
  rw [← houtput, run_runBatch hnames]
  rfl

end CallManual.CommandLine
