import CallManual.Proofs.Settings.Tidy
import CallManual.Settings.Document

/-!
# Layers of settings

Documents are merged one on top of another. Patches stack key by key, tidying leaves settings that
are well-formed as they are, and tidying below a layer changes nothing above it. So the layers can
be put together first and merged once, and a layer that says nothing new changes nothing.
-/
namespace CallManual
open Text

variable {α : Type} {key : α → Text} {seen : List Text} {xs : List α} {t : Text}
  {lo hi n : ℕ}

theorem trimOr_eq_self (h : IsFilled t) (default : Text) : trimOr default t = t := by
  simp [trimOr, trim_eq_self h.2, h.1]

theorem clamp_eq_self (hlo : lo ≤ n) (hhi : n ≤ hi) : clamp lo hi n = n := by
  unfold clamp
  omega

/-- Entries with different keys all stay. -/
theorem keepFirst_eq_self (hnodup : (xs.map key).Nodup) (hseen : ∀ x ∈ xs, key x ∉ seen) :
    keepFirst key seen xs = xs := by
  induction xs generalizing seen with
  | nil => rfl
  | cons x xs ih =>
    obtain ⟨hx, hxs⟩ := List.forall_mem_cons.mp hseen
    obtain ⟨hfirst, hnodup⟩ := List.nodup_cons.mp hnodup
    rw [keepFirst, if_neg (by simpa using hx), ih hnodup]
    intro y hy hmem
    rcases List.mem_cons.mp hmem with heq | hmem
    · exact hfirst (heq ▸ List.mem_map_of_mem hy)
    · exact hxs y hy hmem

/-- A value that is tidied once more may stand below an optional one. -/
theorem getD_of_fixed {f : α → α} {x : α} (h : f (f x) = f x) (o : Option α) :
    f (o.getD (f x)) = f (o.getD x) := by
  cases o with
  | none => exact h
  | some y => rfl

theorem ManualSettings.WellFormed.tidy_eq_self {s : ManualSettings} (h : s.WellFormed) :
    s.tidy = s := by
  have htimeout : clamp timeoutBounds.1 timeoutBounds.2 s.timeoutMs = s.timeoutMs :=
    clamp_eq_self h.timeout.1 h.timeout.2
  rw [tidy, htimeout, trimOr_eq_self h.command, trimOr_eq_self h.manualSection]

theorem LookupSettings.WellFormed.tidy_eq_self {s : LookupSettings} (h : s.WellFormed) :
    s.tidy = s := by
  have hjoin : clamp joinBounds.1 joinBounds.2 s.joinLimit = s.joinLimit :=
    clamp_eq_self h.joinLimit.1 h.joinLimit.2
  have hconcurrency : (if s.concurrency = 0 then 0
      else clamp concurrencyBounds.1 concurrencyBounds.2 s.concurrency) = s.concurrency := by
    rcases h.concurrency with hzero | ⟨hlo, hhi⟩
    · rw [if_pos hzero, hzero]
    · rw [if_neg (by omega)]
      exact clamp_eq_self hlo hhi
  rw [tidy, hjoin, hconcurrency]

theorem AvailabilitySettings.WellFormed.tidyOrder_eq_self {s : AvailabilitySettings}
    (h : s.WellFormed) : tidyOrder s.order = s.order := by
  have htrim : s.order.map trim = s.order :=
    (List.map_congr_left fun n hn => trim_eq_self (h.order n hn).2).trans (List.map_id' _)
  have hfilter : (s.order.filter fun n => !n.isEmpty) = s.order :=
    List.filter_eq_self.mpr fun n hn => by simpa using (h.order n hn).1
  rw [tidyOrder, htrim, hfilter]
  exact keepFirst_eq_self (by simpa using h.order_nodup) (by simp)

theorem AvailabilitySettings.WellFormed.tidyLibraries_eq_self {s : AvailabilitySettings}
    (h : s.WellFormed) : tidyLibraries s.libraries = s.libraries := by
  have htrim : (s.libraries.map fun l => { l with name := trim l.name, path := trim l.path }) =
      s.libraries := by
    refine (List.map_congr_left fun l hl => ?_).trans (List.map_id' _)
    obtain ⟨hname, hpath⟩ := h.libraries l hl
    rw [trim_eq_self hname.2, trim_eq_self hpath.2]
  have hfilter :
      (s.libraries.filter fun l => !l.name.isEmpty && !l.path.isEmpty) = s.libraries := by
    refine List.filter_eq_self.mpr fun l hl => ?_
    obtain ⟨hname, hpath⟩ := h.libraries l hl
    simp [hname.1, hpath.1]
  simp only [tidyLibraries, htrim, hfilter]
  exact keepFirst_eq_self h.libraries_nodup (by simp)

theorem AvailabilitySettings.WellFormed.tidy_eq_self {s : AvailabilitySettings}
    (h : s.WellFormed) : s.tidy = s := by
  rw [tidy, h.tidyOrder_eq_self, h.tidyLibraries_eq_self]

namespace Settings

variable {s : Settings}

theorem WellFormed.tidy_eq_self (h : s.WellFormed) : s.tidy = s := by
  rw [tidy, h.manual.tidy_eq_self, h.lookup.tidy_eq_self, h.availability.tidy_eq_self]

theorem tidy_tidy (s : Settings) : s.tidy.tidy = s.tidy := (wellFormed_tidy s).tidy_eq_self

/-- Keys that a patch gives do not depend on what is below, and the others are tidied twice. -/
theorem tidy_apply_tidy (p : SettingsPatch) (s : Settings) :
    (p.apply s.tidy).tidy = (p.apply s).tidy := by
  have hmanual : (p.apply s.tidy).manual.tidy = (p.apply s).manual.tidy := by
    have h := congrArg Settings.manual (tidy_tidy s)
    simp only [tidy, ManualSettings.tidy, ManualSettings.mk.injEq] at h ⊢
    exact ⟨getD_of_fixed h.1 p.command, getD_of_fixed h.2.1 p.manualSection,
      getD_of_fixed h.2.2 p.timeoutMs⟩
  have hlookup : (p.apply s.tidy).lookup.tidy = (p.apply s).lookup.tidy := by
    have h := congrArg Settings.lookup (tidy_tidy s)
    simp only [tidy, LookupSettings.tidy, LookupSettings.mk.injEq] at h ⊢
    exact ⟨getD_of_fixed h.1 p.joinLimit, getD_of_fixed
      (f := fun n => if n = 0 then 0 else clamp _ _ n) h.2 p.concurrency⟩
  have havailability : (p.apply s.tidy).availability.tidy = (p.apply s).availability.tidy := by
    have h := congrArg Settings.availability (tidy_tidy s)
    simp only [tidy, AvailabilitySettings.tidy, AvailabilitySettings.mk.injEq] at h ⊢
    refine ⟨getD_of_fixed h.1 p.order, ?_⟩
    cases hp : p.libraries with
    | none =>
      simp only [SettingsPatch.apply, hp]
      exact h.2
    | some es => simp only [SettingsPatch.apply, hp]
  exact (Settings.mk.injEq ..).mpr ⟨hmanual, hlookup, havailability, rfl⟩

/-- Patches stack key by key. -/
theorem apply_followedBy (p q : SettingsPatch) (s : Settings) :
    (p.followedBy q).apply s = q.apply (p.apply s) := by
  simp only [SettingsPatch.apply, SettingsPatch.followedBy, Option.getD_or]
  cases q.libraries <;> rfl

theorem merge_merge (s : Settings) (p q : SettingsPatch) :
    (s.merge p).merge q = s.merge (p.followedBy q) := by
  rw [merge, merge, tidy_apply_tidy, merge, apply_followedBy]

theorem followedBy_self (p : SettingsPatch) : p.followedBy p = p := by
  simp [SettingsPatch.followedBy]

theorem followedBy_empty (p : SettingsPatch) : p.followedBy {} = p := by
  simp [SettingsPatch.followedBy]

theorem mergeText?_bind (s : Settings) (t u : Text) :
    ((s.mergeText? t).bind fun r => r.mergeText? u) = (SettingsPatch.ofText? t).bind fun p =>
      (SettingsPatch.ofText? u).map fun q => s.merge (p.followedBy q) := by
  simp only [mergeText?]
  cases SettingsPatch.ofText? t with
  | none => rfl
  | some p => exact congrArg (Option.map · _) (funext (merge_merge s p))

/-- Merging two layers one after the other is merging them put together. So the same layer a second
time, or an empty one, changes nothing; and likewise for the documents that describe the layers. -/
theorem merge_layers (s : Settings) :
    (∀ p q, (s.merge p).merge q = s.merge (p.followedBy q)) ∧
    (∀ p, (s.merge p).merge p = s.merge p ∧ (s.merge p).merge {} = s.merge p) ∧
    (∀ t u, ((s.mergeText? t).bind fun r => r.mergeText? u) =
      (SettingsPatch.ofText? t).bind fun p =>
        (SettingsPatch.ofText? u).map fun q => s.merge (p.followedBy q)) ∧
    ∀ t, ((s.mergeText? t).bind fun r => r.mergeText? t) = s.mergeText? t ∧
      ((s.mergeText? t).bind fun r => r.mergeText? []) = s.mergeText? t := by
  refine ⟨merge_merge s, fun p => ?_, mergeText?_bind s, fun t => ?_⟩
  · rw [merge_merge, merge_merge, followedBy_self, followedBy_empty]
    exact ⟨rfl, rfl⟩
  · have hempty : SettingsPatch.ofText? [] = some {} := rfl
    rw [mergeText?_bind, mergeText?_bind, hempty, mergeText?]
    cases SettingsPatch.ofText? t with
    | none => exact ⟨rfl, rfl⟩
    | some p => simp [followedBy_self, followedBy_empty]

/-- A blank command falls back to the default, and the other key of the first layer stays. -/
example : ((({} : Settings).merge { command := some " nroff ", timeoutMs := some 7 }).merge
    { command := some "\t" }) = { manual := { timeoutMs := 100 } } := by
  decide

end Settings

end CallManual
