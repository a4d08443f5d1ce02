import CallManual.Proofs.Text.Trim
import CallManual.Settings.Patch

/-!
# Tidied settings

Tidying makes settings of any kind well-formed: texts lose their white space and are never blank,
numbers lie in their bounds, and of the entries with one name a single one stays.
-/
namespace CallManual
open Text

variable {α : Type} {key : α → Text} {seen : List Text} {xs : List α} {x : α} {default t : Text}
  {lo hi n : ℕ}

/-- A text that is not empty and has no white space at either end. -/
def Text.IsFilled (t : Text) : Prop := t ≠ [] ∧ Tight t

theorem isFilled_trim (h : trim t ≠ []) : IsFilled (trim t) := ⟨h, tight_trim t⟩

theorem isFilled_of_trim_eq_self (hne : t ≠ []) (h : trim t = t) : IsFilled t :=
  ⟨hne, h ▸ tight_trim t⟩

theorem isFilled_trimOr (h : IsFilled default) (t : Text) : IsFilled (trimOr default t) := by
  unfold trimOr
  by_cases ht : trim t = []
  · simpa [ht] using h
  · simpa [ht] using isFilled_trim ht

theorem clamp_bounds (h : lo ≤ hi) (n : ℕ) : lo ≤ clamp lo hi n ∧ clamp lo hi n ≤ hi := by
  unfold clamp
  omega

theorem keepFirst_sublist (key : α → Text) (seen : List Text) (xs : List α) :
    (keepFirst key seen xs).Sublist xs := by
  fun_induction keepFirst key seen xs with
  | case1 => exact .slnil
  | case2 seen x xs _ ih => exact ih.cons x
  | case3 seen x xs _ ih => exact ih.cons_cons x

theorem notMem_seen_of_mem_keepFirst (h : x ∈ keepFirst key seen xs) : key x ∉ seen := by
  fun_induction keepFirst key seen xs with
  | case1 => cases h
  | case2 seen y xs _ ih => exact ih h
  | case3 seen y xs hy ih =>
    rcases List.mem_cons.mp h with rfl | h
    · simpa using hy
    · exact fun hm => ih h (List.mem_cons_of_mem _ hm)

/-- What stays has pairwise different keys. -/
theorem nodup_keepFirst (key : α → Text) (seen : List Text) (xs : List α) :
    ((keepFirst key seen xs).map key).Nodup := by
  fun_induction keepFirst key seen xs with
  | case1 => exact List.nodup_nil
  | case2 seen x xs _ ih => exact ih
  | case3 seen x xs _ ih =>
    refine List.nodup_cons.mpr ⟨fun hm => ?_, ih⟩
    obtain ⟨y, hy, hkey⟩ := List.mem_map.mp hm
    exact notMem_seen_of_mem_keepFirst hy (hkey ▸ List.mem_cons_self)

structure ManualSettings.WellFormed (s : ManualSettings) : Prop where
  command : IsFilled s.command
  manualSection : IsFilled s.manualSection
  timeout : 100 ≤ s.timeoutMs ∧ s.timeoutMs ≤ 60000

theorem ManualSettings.wellFormed_tidy (s : ManualSettings) : s.tidy.WellFormed where
  command := isFilled_trimOr (isFilled_of_trim_eq_self (by decide) (by decide)) s.command
  manualSection :=
    isFilled_trimOr (isFilled_of_trim_eq_self (by decide) (by decide)) s.manualSection
  timeout := clamp_bounds (by decide) s.timeoutMs

structure LookupSettings.WellFormed (s : LookupSettings) : Prop where
  joinLimit : 1 ≤ s.joinLimit ∧ s.joinLimit ≤ 8
  concurrency : s.concurrency = 0 ∨ (1 ≤ s.concurrency ∧ s.concurrency ≤ 64)

theorem LookupSettings.wellFormed_tidy (s : LookupSettings) : s.tidy.WellFormed where
  joinLimit := clamp_bounds (by decide) s.joinLimit
  concurrency := by
    by_cases h : s.concurrency = 0
    · exact Or.inl (if_pos h)
    · refine Or.inr ?_
      rw [show s.tidy.concurrency = clamp 1 64 s.concurrency from if_neg h]
      exact clamp_bounds (by decide) s.concurrency

structure AvailabilitySettings.WellFormed (s : AvailabilitySettings) : Prop where
  order : ∀ n ∈ s.order, IsFilled n
  order_nodup : s.order.Nodup
  libraries : ∀ l ∈ s.libraries, IsFilled l.name ∧ IsFilled l.path
  libraries_nodup : (s.libraries.map Library.name).Nodup

theorem AvailabilitySettings.wellFormed_tidy (s : AvailabilitySettings) : s.tidy.WellFormed where
  order n hn := by
    have hmem := (keepFirst_sublist id [] _).subset hn
    obtain ⟨hmap, hne⟩ := List.mem_filter.mp hmem
    obtain ⟨t, -, rfl⟩ := List.mem_map.mp hmap
    exact isFilled_trim (by simpa using hne)
  order_nodup := by
    have h := nodup_keepFirst id [] ((s.order.map trim).filter fun n => !n.isEmpty)
    rwa [List.map_id] at h
  libraries l hl := by
    have hmem := (keepFirst_sublist Library.name [] _).subset hl
    obtain ⟨hmap, hne⟩ := List.mem_filter.mp hmem
    obtain ⟨l, -, rfl⟩ := List.mem_map.mp hmap
    simp only [Bool.and_eq_true, Bool.not_eq_true', List.isEmpty_eq_false_iff] at hne
    exact ⟨isFilled_trim hne.1, isFilled_trim hne.2⟩
  libraries_nodup := nodup_keepFirst Library.name [] _

/-- What holds of settings that were tidied. -/
structure Settings.WellFormed (s : Settings) : Prop where
  manual : s.manual.WellFormed
  lookup : s.lookup.WellFormed
  availability : s.availability.WellFormed

theorem Settings.wellFormed_tidy (s : Settings) : s.tidy.WellFormed :=
  ⟨s.manual.wellFormed_tidy, s.lookup.wellFormed_tidy, s.availability.wellFormed_tidy⟩

end CallManual
