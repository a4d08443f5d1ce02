import CallManual.Host.Log
import CallManual.Host.Machine
import CallManual.Page.Source
import CallManual.Proofs.Host.Yields

/-!
# What actions leave as it is

A log only adds to the console and to its file, and a page is fetched with nothing but reading files
and running programs. On a described machine neither of these touches the output, and a log without
a file touches no file.
-/
namespace CallManual

variable {m : Type → Type} [Monad m] {host : Host m} {v : Guarantee m} {file : Option Path}

theorem Logger.allows_ofHost (hconsole : ∀ t, v.Allows (host.emit .console t))
    (hfile : ∀ p, file = some p → ∀ t, v.Allows (host.emit (.file p) t))
    (threshold level : LogLevel) (t : Text) :
    v.Allows (ofHost host threshold file level t) := by
  unfold ofHost
  cases file with
  | none =>
    dsimp only
    split
    · exact v.holds_bind (hconsole _) fun _ _ => v.allows_pure _
    · exact v.allows_pure _
  | some p =>
    have hend : v.Allows (if LogLevel.debug.isShownAt level then
        host.emit (.file p) (logLine level t) else pure ⟨⟩) := by
      split
      · exact hfile p rfl _
      · exact v.allows_pure _
    dsimp only
    split
    · exact v.holds_bind (hconsole _) fun _ _ => hend
    · exact hend

section Fetching
variable (hread : ∀ p, v.Allows (host.read p))
include hread

theorem Host.allows_readText (p : Path) : v.Allows (host.readText p) := by
  refine v.holds_bind (hread p) fun content _ => ?_
  cases content with
  | error e => exact v.allows_pure _
  | ok bytes =>
    dsimp only
    split <;> exact v.allows_pure _

theorem PageDirectory.allows_firstPage (ps : List Path) :
    v.Allows (firstPage host ps) := by
  induction ps with
  | nil => exact v.allows_pure _
  | cons p ps ih =>
    refine v.holds_bind (Host.allows_readText hread p) fun text _ => ?_
    cases text with
    | ok text => exact v.allows_pure _
    | error e =>
      cases e with
      | notFound => exact ih
      | _ => exact v.allows_pure _

theorem PageSource.allows_fetch (hrun : ∀ c, v.Allows (host.run c)) (s : PageSource)
    (callName : Text) : v.Allows (s.fetch host callName) := by
  cases s with
  | directory d =>
    refine v.holds_bind (p := fun _ => True) ?_ fun _ _ => v.holds_pure trivial
    unfold PageDirectory.fetch
    split
    · exact PageDirectory.allows_firstPage hread _
    · exact v.allows_pure _
  | command c =>
    unfold fetch ManualCommand.fetch
    dsimp only
    split
    · refine v.holds_bind (hrun _) fun completion _ => ?_
      split
      · exact v.allows_pure _
      · exact v.allows_pure _
      · split <;> exact v.allows_pure _
      · exact v.allows_pure _
    · exact v.allows_pure _

end Fetching

namespace Machine
variable {programs : Programs} {processors : ℕ} {inv : Machine → Prop}

theorem allows_read (p : Path) :
    (Guarantee.within inv).Allows ((Machine.host programs processors).read p) :=
  fun _ h => ⟨trivial, h⟩

theorem allows_run (c : Command) :
    (Guarantee.within inv).Allows ((Machine.host programs processors).run c) :=
  fun _ h => ⟨trivial, h⟩

theorem output_emit_file (s : Machine) (p : Path) (t : Text) :
    (s.emit (.file p) t).output = s.output := by
  simp only [emit]
  split <;> rfl

/-- The log has no part in the output. -/
theorem allows_log_of_output (output : Text) (threshold level : LogLevel) (t : Text) :
    (Guarantee.within fun s => s.output = output).Allows
      (Logger.ofHost (Machine.host programs processors) threshold file level t) :=
  Logger.allows_ofHost (fun _ _ h => ⟨trivial, h⟩)
    (fun p _ t s h => ⟨trivial, (output_emit_file s p t).trans h⟩) threshold level t

/-- A log without a file has no part in the files. -/
theorem allows_log_of_files (files : Tree) (directory : Path) (threshold level : LogLevel)
    (t : Text) : (Guarantee.within fun s => s.files = files ∧ s.directory = directory).Allows
      (Logger.ofHost (Machine.host programs processors) threshold none level t) :=
  Logger.allows_ofHost (fun _ _ h => ⟨trivial, h⟩) (fun _ h => by cases h) threshold level t

end Machine

end CallManual
