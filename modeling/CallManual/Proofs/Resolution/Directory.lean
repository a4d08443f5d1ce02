import CallManual.Proofs.Host.Machine
import CallManual.Proofs.Page.Directory
import CallManual.Proofs.Resolution.Schedule

/-!
# Batches over a directory of pages

On a described machine the pages of a directory depend on its files alone, which fetching does not
change and a log without a file does not either. So a batch over them does not depend on its
schedule.
-/
namespace CallManual.Schedule
open Relation

variable {programs : Machine.Programs} {processors permits : ℕ} {threshold : LogLevel}
  {callNames : List Text} {s : Schedule}

/-- Whatever the order of its lookups was, the report of a batch that is done is the report of the
batch that looks up one name after another, and what the loop over the names collects. -/
theorem report_of_run_of_directory (machine : Machine) (d : PageDirectory) (limit : ℕ) :
    let host := Machine.host programs processors
    let r := Resolver.ofSource host (.directory d) limit
    let log := Logger.ofHost host threshold none
    let pages n := ((r.fetch n).run machine).1
    ReflTransGen (Step (Resolver.answer limit pages)) (start permits callNames) s →
      s.isDone = true → ∃ report, s.report? callNames = some report ∧
        ((r.lookupAll log permits callNames).run machine).1 = report ∧
        ((CommandLine.collectLookups log r callNames).run machine).1 =
          (report.resolutions, report.defects.length) := by
  intro host r log pages hrun hd
  let inv (st : Machine) : Prop := st.files = machine.files ∧ st.directory = machine.directory
  have hfetch (n : Text) (st : Machine) :
      (r.fetch n).run st = ((d.pageIn st.files st.directory n, none), st) := by
    change (d.fetch host n >>= fun page => pure (page, none)).run st = _
    rw [StateT.run_bind, PageDirectory.run_fetch]
    rfl
  have hpages (n : Text) (st : Machine) (hst : inv st) :
      ((r.fetch n).run st).1 = pages n ∧ inv ((r.fetch n).run st).2 := by
    simp only [pages, hfetch, hst.1, hst.2, true_and]
    exact hst
  have hlog (level : LogLevel) (t : Text) (st : Machine) (hst : inv st) :
      inv ((log level t).run st).2 :=
    (Machine.allows_log_of_files machine.files machine.directory threshold level t st hst).2
  obtain ⟨report, hreport, hstates⟩ := report_of_run_within hpages hlog hrun hd
  exact ⟨report, hreport, hstates machine ⟨rfl, rfl⟩⟩

end CallManual.Schedule
