import CallManual.Declaration.Selection
import Mathlib.Data.List.Infix

/-!
# The declaration that is chosen

Of several declarations of one name the earliest with the most parameters is chosen, so one that
comes first and has as many parameters as any other is never displaced. More candidates can only
replace one of the right name by another of that name with at least as many parameters. One of
another name is chosen only where none has the right name, and alone.
-/
namespace CallManual.Declaration

variable {d e : Declaration} {ds : List Declaration} {n t : Text}

def UnderscoreRun (n : Text) : Prop := 2 ≤ n.length ∧ ∀ c ∈ n, c = '_'

instance : DecidablePred UnderscoreRun := fun n =>
  inferInstanceAs (Decidable (2 ≤ n.length ∧ ∀ c ∈ n, c = '_'))

/-- A text in front of itself shifted by one underscore holds nothing else. -/
theorem eq_underscore_of_isPrefix (h : t <+: '_' :: t) : ∀ c ∈ t, c = '_' := by
  induction t with
  | nil => simp
  | cons c t ih =>
    obtain ⟨rfl, ht⟩ := List.cons_prefix_cons.mp h
    intro x hx
    cases hx with
    | head => rfl
    | tail _ hx => exact ih ht x hx

theorem withPublicName_self (h : ¬ UnderscoreRun d.name) : withPublicName d.name d = d := by
  unfold withPublicName
  split
  · next c rest hname =>
    split
    · next hp =>
      rw [hname] at hp h
      have hrun := eq_underscore_of_isPrefix (List.isPrefixOf_iff_prefix.mp hp)
      exact absurd ⟨by simp, List.forall_mem_cons.mpr ⟨rfl, hrun⟩⟩ h
    · rfl
  · rfl

theorem withPublicName_eq_or (n : Text) (d : Declaration) : withPublicName n d = d ∨
    ∃ t, d.name = '_' :: t ∧ withPublicName n d = { d with name := t } := by
  unfold withPublicName
  split
  · next c rest hname =>
    split
    · exact Or.inr ⟨c :: rest, hname, rfl⟩
    · exact Or.inl rfl
  · exact Or.inl rfl

theorem arity_withPublicName (n : Text) (d : Declaration) :
    (withPublicName n d).arity = d.arity := by
  obtain h | ⟨t, -, h⟩ := withPublicName_eq_or n d
  · rw [h]
  · rw [h, arity, arity]

theorem mem_admissible :
    e ∈ admissible n ds ↔ (∃ d ∈ ds, withPublicName n d = e) ∧ e.name <+: n := by
  simp [admissible, List.mem_filter, List.mem_map]

theorem admissible_cons_self (h : ¬ UnderscoreRun d.name) (ds : List Declaration) :
    admissible d.name (d :: ds) = d :: admissible d.name ds := by
  simp [admissible, withPublicName_self h]

/-- One whose public name is the call name is admissible. -/
theorem mem_admissible_of_name_eq (hd : d ∈ ds) (hname : (withPublicName n d).name = n) :
    withPublicName n d ∈ admissible n ds := by
  have hpublic : (withPublicName n d).name <+: n := by rw [hname]
  exact mem_admissible.mpr ⟨⟨d, hd, rfl⟩, hpublic⟩

theorem mem_of_richest?_eq_some (h : richest? ds = some d) : d ∈ ds := by
  induction ds generalizing d with
  | nil => cases h
  | cons e ds ih =>
    cases hr : richest? ds with
    | none =>
      simp only [richest?, hr, Option.some.injEq] at h
      exact h ▸ List.mem_cons_self
    | some r =>
      simp only [richest?, hr, Option.some.injEq] at h
      split at h
      · exact h ▸ List.mem_cons_of_mem e (ih hr)
      · exact h ▸ List.mem_cons_self

theorem richest?_cons_of_le (h : ∀ e ∈ ds, e.arity ≤ d.arity) : richest? (d :: ds) = some d := by
  cases hr : richest? ds with
  | none => simp only [richest?, hr]
  | some r =>
    have hle := h r (mem_of_richest?_eq_some hr)
    simp only [richest?, hr]
    rw [if_neg (by omega)]

/-- Later declarations with no more parameters do not displace one of the right name. -/
theorem select_cons_of_le (hname : ¬ UnderscoreRun d.name) (h : ∀ e ∈ ds, e.arity ≤ d.arity) :
    select d.name (d :: ds) = .ok d := by
  have hle : ∀ e ∈ (admissible d.name ds).filter fun e => e.name = d.name, e.arity ≤ d.arity := by
    intro e he
    obtain ⟨⟨e', he', rfl⟩, -⟩ := mem_admissible.mp (List.mem_of_mem_filter he)
    exact arity_withPublicName d.name e' ▸ h e' he'
  rw [select, admissible_cons_self hname]
  cases hds : admissible d.name ds with
  | nil => rfl
  | cons e es =>
    rw [hds] at hle
    have hfilter : (d :: e :: es).filter (fun e => e.name = d.name) =
        d :: (e :: es).filter fun e => e.name = d.name := by
      simp
    simp only [hfilter, richest?_cons_of_le hle]

theorem exists_richest {d : Declaration} (h : d ∈ ds) :
    ∃ e ∈ ds, richest? ds = some e ∧ d.arity ≤ e.arity := by
  induction ds with
  | nil => cases h
  | cons c ds ih =>
    cases hr : richest? ds with
    | none =>
      cases h with
      | head => exact ⟨d, List.mem_cons_self, by simp [richest?, hr], Nat.le_refl _⟩
      | tail _ h =>
        obtain ⟨e, -, he, -⟩ := ih h
        simp [hr] at he
    | some r =>
      have hmem : (if c.arity < r.arity then r else c) ∈ c :: ds := by
        split
        · exact List.mem_cons_of_mem c (mem_of_richest?_eq_some hr)
        · exact List.mem_cons_self
      refine ⟨_, hmem, by simp only [richest?, hr], ?_⟩
      cases h with
      | head => split <;> omega
      | tail _ h =>
        obtain ⟨e, -, he, hle⟩ := ih h
        obtain rfl : r = e := Option.some.inj (hr.symm.trans he)
        split <;> omega

theorem richest?_eq_none_iff : richest? ds = none ↔ ds = [] := by
  cases ds with
  | nil => simp [richest?]
  | cons d ds =>
    obtain ⟨e, -, he, -⟩ := exists_richest (List.mem_cons_self : d ∈ d :: ds)
    simp [he]

theorem arity_le_of_richest? (h : richest? ds = some d) (he : e ∈ ds) : e.arity ≤ d.arity := by
  obtain ⟨r, -, hr, hle⟩ := exists_richest he
  obtain rfl : d = r := Option.some.inj (h.symm.trans hr)
  exact hle

/-- What the rules of the choice have left when one is chosen. -/
theorem select_cases (h : select n ds = .ok d) :
    admissible n ds = [d] ∨
      richest? ((admissible n ds).filter fun e => e.name = n) = some d ∨
      ((admissible n ds).filter fun e => e.name = n) = [] ∧
        ((admissible n ds).filter fun e => e.name = unversioned n) = [d] := by
  rw [select] at h
  split at h
  · cases h
  · next e he =>
    cases h
    exact Or.inl he
  · split at h
    · next e hr =>
      cases h
      exact Or.inr (Or.inl hr)
    · next hr =>
      refine Or.inr (Or.inr ⟨richest?_eq_none_iff.mp hr, ?_⟩)
      simp only [selectVersioned] at h
      split at h
      · cases h
      · split at h
        · cases h
        · next e he =>
          cases h
          exact he
        · cases h

theorem mem_admissible_of_select (h : select n ds = .ok d) : d ∈ admissible n ds := by
  obtain honly | hrichest | ⟨-, hversioned⟩ := select_cases h
  · exact honly ▸ List.mem_singleton_self d
  · exact List.mem_of_mem_filter (mem_of_richest?_eq_some hrichest)
  · exact List.mem_of_mem_filter (hversioned ▸ List.mem_singleton_self d)

/-- A declaration of the right name is chosen for its parameters, any other because none has the
right name and no second one comes into question. -/
theorem preferred_of_select (h : select n ds = .ok d) :
    (d.name = n ∧ ∀ e ∈ ds, (withPublicName n e).name = n → e.arity ≤ d.arity) ∨
      (∀ e ∈ ds, (withPublicName n e).name ≠ n) ∧
        (admissible n ds = [d] ∨
          ((admissible n ds).filter fun e => e.name = unversioned n) = [d]) := by
  obtain honly | hrichest | ⟨hnone, hversioned⟩ := select_cases h
  · have heq {e : Declaration} (he : e ∈ ds) (hname : (withPublicName n e).name = n) :
        withPublicName n e = d :=
      List.mem_singleton.mp (honly ▸ mem_admissible_of_name_eq he hname)
    by_cases hname : d.name = n
    · refine Or.inl ⟨hname, fun e he hen => ?_⟩
      rw [← arity_withPublicName n e, heq he hen]
    · exact Or.inr ⟨fun e he hen => hname (heq he hen ▸ hen), Or.inl honly⟩
  · have hmem := mem_of_richest?_eq_some hrichest
    refine Or.inl ⟨by simpa using (List.mem_filter.mp hmem).2, fun e he hen => ?_⟩
    rw [← arity_withPublicName n e]
    exact arity_le_of_richest? hrichest
      (List.mem_filter.mpr ⟨mem_admissible_of_name_eq he hen, by simpa using hen⟩)
  · refine Or.inr ⟨fun e he hen => ?_, Or.inr hversioned⟩
    exact List.filter_eq_nil_iff.mp hnone _ (mem_admissible_of_name_eq he hen) (by simpa using hen)

/-- A choice fails for several reasons; a tie is always one for the call name itself. -/
theorem callName_of_select_ambiguous {m : Text} {cs : List Text}
    (h : select n ds = .error (.ambiguous m cs)) : m = n := by
  rw [select] at h
  split at h
  · cases h
  · cases h
  · split at h
    · cases h
    · simp only [selectVersioned] at h
      split at h
      · cases h
      · split at h <;> cases h
        rfl

/-- One of the right name is chosen as soon as there is one, and none with more parameters is
passed over. -/
theorem exists_select_of_mem (hd : d ∈ admissible n ds) (hname : d.name = n) :
    ∃ e, select n ds = .ok e ∧ e.name = n ∧ d.arity ≤ e.arity := by
  cases hds : admissible n ds with
  | nil =>
    rw [hds] at hd
    cases hd
  | cons c cs =>
    cases cs with
    | nil =>
      rw [hds, List.mem_singleton] at hd
      exact ⟨c, by rw [select, hds], hd ▸ hname, hd ▸ Nat.le_refl _⟩
    | cons c' cs =>
      have hmem : d ∈ (c :: c' :: cs).filter fun e => e.name = n :=
        List.mem_filter.mpr ⟨hds ▸ hd, by simpa using hname⟩
      obtain ⟨e, he, hr, hle⟩ := exists_richest hmem
      refine ⟨e, ?_, by simpa using (List.mem_filter.mp he).2, hle⟩
      simp only [select, hds, hr]

theorem admissible_append (n : Text) (cs ds : List Declaration) :
    admissible n (cs ++ ds) = admissible n cs ++ admissible n ds := by
  simp [admissible]

/-- More candidates in front do not displace the choice of one of the right name, unless for one
with at least as many parameters. -/
theorem exists_select_append (h : select n ds = .ok d) (hname : d.name = n)
    (cs : List Declaration) :
    ∃ e, select n (cs ++ ds) = .ok e ∧ e.name = n ∧ d.arity ≤ e.arity := by
  apply exists_select_of_mem _ hname
  rw [admissible_append]
  exact List.mem_append_right _ (mem_admissible_of_select h)

end CallManual.Declaration
