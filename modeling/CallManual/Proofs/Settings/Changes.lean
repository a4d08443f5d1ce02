import CallManual.Proofs.Settings.Tidy
import CallManual.Settings.Document

/-!
# Changes of settings

Settings change when a document is read, on its own or on top of others, and when a number of jobs
is asked for. Each change keeps settings well-formed, so they are after any run of changes from the
defaults, and a document that cannot be read changes nothing.
-/
namespace CallManual.Settings

variable {s : Settings}

/-- A change that is asked for. A document stands for what was read of it, `none` when it is no
settings document. -/
inductive Change
  | replace (document : Option SettingsPatch)
  | merge (document : Option SettingsPatch)
  | jobs (count : Option ℕ)

/-- The settings that a change asks for, unless it fails. -/
def changed? (s : Settings) : Change → Option Settings
  | .replace document => document.map (Settings.merge {})
  | .merge document => document.map s.merge
  | .jobs count => some (s.withJobs count)

/-- A change that fails leaves the settings as they are. -/
def after (s : Settings) (c : Change) : Settings := (s.changed? c).getD s

def afterAll (s : Settings) (cs : List Change) : Settings := cs.foldl after s

theorem after_of_changed?_eq_none {c : Change} (h : s.changed? c = none) : s.after c = s := by
  rw [after, h]
  rfl

theorem mergeText?_eq_changed? (s : Settings) (t : Text) :
    s.mergeText? t = s.changed? (.merge (SettingsPatch.ofText? t)) := rfl

/-- Settings that are read on their own are read on top of the defaults. -/
theorem mergeText?_default_eq_changed? (s : Settings) (t : Text) :
    mergeText? {} t = s.changed? (.replace (SettingsPatch.ofText? t)) := rfl

theorem wellFormed_default : ({} : Settings).WellFormed :=
  wellFormed_tidy {}

theorem WellFormed.withJobs (h : s.WellFormed) (count : Option ℕ) :
    (s.withJobs count).WellFormed := by
  cases count with
  | none => exact h
  | some n => exact { h with lookup := ⟨h.lookup.joinLimit, Or.inr (clamp_bounds (by decide) n)⟩ }

theorem wellFormed_merge (s : Settings) (p : SettingsPatch) : (s.merge p).WellFormed :=
  wellFormed_tidy (p.apply s)

theorem WellFormed.after (h : s.WellFormed) (c : Change) : (s.after c).WellFormed := by
  cases c with
  | replace document =>
    cases document with
    | none => exact h
    | some p => exact wellFormed_merge {} p
  | merge document =>
    cases document with
    | none => exact h
    | some p => exact wellFormed_merge s p
  | jobs count => exact h.withJobs count

theorem WellFormed.afterAll (h : s.WellFormed) (cs : List Change) : (s.afterAll cs).WellFormed := by
  induction cs generalizing s with
  | nil => exact h
  | cons c cs ih => exact ih (h.after c)

/-- With a processor there is a worker, so a batch has a permit to start with. -/
theorem WellFormed.workers_pos (h : s.WellFormed) {processors : ℕ} (hp : 1 ≤ processors) :
    1 ≤ s.lookup.workers processors := by
  unfold LookupSettings.workers
  split
  · exact hp
  · next hne => exact (h.lookup.concurrency.resolve_left hne).1

/-- After any changes from the defaults, the settings are well-formed and a batch has a permit to
start with; one more document is one more change, which leaves them as they are when it fails. -/
theorem wellFormed_after_changes (cs : List Change) :
    (afterAll {} cs).WellFormed ∧
    (∀ processors, 1 ≤ processors → 1 ≤ (afterAll {} cs).lookup.workers processors) ∧
    (∀ t, (afterAll {} cs).mergeText? t =
        (afterAll {} cs).changed? (.merge (SettingsPatch.ofText? t)) ∧
      mergeText? {} t = (afterAll {} cs).changed? (.replace (SettingsPatch.ofText? t))) ∧
    ∀ c, (afterAll {} cs).changed? c = none → (afterAll {} cs).after c = afterAll {} cs := by
  have h := wellFormed_default.afterAll cs
  refine ⟨h, fun processors => h.workers_pos, fun t => ?_, fun c => after_of_changed?_eq_none⟩
  exact ⟨mergeText?_eq_changed? _ t, mergeText?_default_eq_changed? _ t⟩

/-- Names that become equal or blank, a document that fails, and more jobs than are allowed. -/
example : afterAll {} [.merge (some { order := some [" a ", "", "a"], command := some "\t" }),
    .replace none, .jobs (some 99)] =
    { availability := { order := ["a"] }, lookup := { concurrency := 64 } } := by
  decide

end CallManual.Settings
