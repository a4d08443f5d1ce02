import CallManual.Text.Basic
import Mathlib.Data.List.DropRight

/-!
# The ends of a text

A tight text has no white space at either end. Trimming gives a tight text, keeps a tight one, and
takes nothing away but white space.
-/
namespace CallManual.Text

variable {a t : Text}

def Tight (t : Text) : Prop :=
  (∀ c ∈ t.head?, isBlank c = false) ∧ ∀ c ∈ t.getLast?, isBlank c = false

def AllBlank (t : Text) : Prop := ∀ c ∈ t, isBlank c = true

instance : DecidablePred AllBlank := fun t =>
  inferInstanceAs (Decidable (∀ c ∈ t, isBlank c = true))

theorem trimStart_eq_self (h : ∀ c ∈ t.head?, isBlank c = false) : trimStart t = t := by
  cases t with
  | nil => rfl
  | cons c t => simp [trimStart, h c rfl]

theorem exists_trimStart (t : Text) : ∃ b, AllBlank b ∧ t = b ++ trimStart t :=
  ⟨t.takeWhile isBlank, fun _ hc => List.mem_takeWhile_imp hc,
    List.takeWhile_append_dropWhile.symm⟩

def startsBlank : Text → Bool
  | c :: _ => isBlank c
  | [] => false

theorem startsBlank_append {gap : Text} (hgap : AllBlank gap) (hne : gap ≠ []) (t : Text) :
    startsBlank (gap ++ t) = true := by
  obtain ⟨c, gap, rfl⟩ := List.exists_cons_of_ne_nil hne
  exact hgap c (by simp)

/-- Text that starts with white space is a gap and what trimming leaves of it. -/
theorem exists_gap (h : startsBlank t = true) :
    ∃ gap, AllBlank gap ∧ gap ≠ [] ∧ t = gap ++ trimStart t := by
  cases t with
  | nil => cases h
  | cons c t =>
    have hc : isBlank c = true := h
    obtain ⟨gap, hgap, ht⟩ := exists_trimStart t
    refine ⟨c :: gap, List.forall_mem_cons.mpr ⟨hc, hgap⟩, by simp, ?_⟩
    rw [trimStart, List.dropWhile_cons_of_pos hc, List.cons_append, ← trimStart, ← ht]

/-- A gap is trimmed away in front of a character that is no white space. -/
theorem trimStart_gap {gap : Text} {c : Char} (hgap : AllBlank gap) (hc : isBlank c = false)
    (t : Text) : trimStart (gap ++ c :: t) = c :: t := by
  rw [trimStart, List.dropWhile_append_of_pos hgap]
  apply trimStart_eq_self
  simpa using hc

/-- What is left when the end of a text is taken away as far as `p` holds. -/
theorem rdropWhile_eq_iff {p : Char → Bool} : t.rdropWhile p = a ↔
    (∃ b, (∀ c ∈ b, p c = true) ∧ t = a ++ b) ∧ ∀ c ∈ a.getLast?, p c = false := by
  constructor
  · rintro rfl
    refine ⟨⟨t.rtakeWhile p, fun c hc => List.mem_rtakeWhile_imp hc,
      List.rdropWhile_append_rtakeWhile.symm⟩, fun c hc => ?_⟩
    have hne : t.rdropWhile p ≠ [] := by
      rintro h
      rw [h] at hc
      cases hc
    have hlast := List.rdropWhile_last_not p t hne
    rw [List.getLast?_eq_some_getLast hne, Option.mem_def, Option.some.injEq] at hc
    simpa [hc] using hlast
  · rintro ⟨⟨b, hb, rfl⟩, hlast⟩
    have hend : ∀ c ∈ b.reverse, p c = true := by simpa using hb
    have hfront : a.rdropWhile p = a := by
      apply List.rdropWhile_eq_self_iff.mpr
      intro hne
      simp [hlast _ (List.getLast?_eq_some_getLast hne)]
    rw [List.rdropWhile, List.reverse_append, List.dropWhile_append_of_pos hend]
    exact hfront

theorem trimEnd_eq_self (h : ∀ c ∈ t.getLast?, isBlank c = false) : trimEnd t = t :=
  rdropWhile_eq_iff.mpr ⟨⟨[], by simp⟩, h⟩

theorem exists_trimEnd (t : Text) : ∃ b, AllBlank b ∧ t = trimEnd t ++ b :=
  (rdropWhile_eq_iff.mp rfl).1

theorem trim_eq_self (h : Tight t) : trim t = t := by
  rw [trim, trimStart_eq_self h.1, trimEnd_eq_self h.2]

/-- What trimming takes away is white space at the two ends. -/
theorem exists_trim (t : Text) : ∃ b e, AllBlank b ∧ AllBlank e ∧ t = b ++ trim t ++ e := by
  obtain ⟨b, hb, ht⟩ := exists_trimStart t
  obtain ⟨e, he, hs⟩ := exists_trimEnd (trimStart t)
  refine ⟨b, e, hb, he, ?_⟩
  rw [trim, List.append_assoc, ← hs]
  exact ht

theorem trim_isInfix (t : Text) : trim t <:+: t := by
  obtain ⟨b, e, -, -, ht⟩ := exists_trim t
  exact ⟨b, e, ht.symm⟩

theorem head?_trimStart (t : Text) : ∀ c ∈ (trimStart t).head?, isBlank c = false := by
  intro c hc
  have h := List.head?_dropWhile_not isBlank t
  rw [trimStart] at hc
  rw [Option.mem_def.mp hc] at h
  exact h

theorem getLast?_trimEnd (t : Text) : ∀ c ∈ (trimEnd t).getLast?, isBlank c = false :=
  (rdropWhile_eq_iff.mp rfl).2

/-- Trimming the end leaves a front that is no white space where it is. -/
theorem head?_trimEnd {c : Char} (hc : isBlank c = false) (t : Text) :
    ∃ s, trimEnd (c :: t) = c :: s := by
  obtain ⟨b, hb, ht⟩ := exists_trimEnd (c :: t)
  cases hs : trimEnd (c :: t) with
  | nil =>
    rw [hs] at ht
    have : c ∈ b := by rw [show b = c :: t from ht.symm]; exact List.mem_cons_self
    simp [hb c this] at hc
  | cons d s =>
    rw [hs, List.cons_append, List.cons.injEq] at ht
    exact ⟨s, by rw [ht.1]⟩

theorem tight_trim (t : Text) : Tight (trim t) := by
  refine ⟨?_, getLast?_trimEnd _⟩
  intro c hc
  have hs := head?_trimStart t
  rw [trim] at hc
  cases h : trimStart t with
  | nil => simp [h, trimEnd] at hc
  | cons d s =>
    rw [h] at hs hc
    obtain ⟨r, hr⟩ := head?_trimEnd (hs d rfl) s
    rw [hr] at hc
    cases hc
    exact hs _ rfl

theorem mem_trimStart {c : Char} (hc : isBlank c = false) (h : c ∈ t) : c ∈ trimStart t := by
  obtain ⟨b, hb, ht⟩ := exists_trimStart t
  rw [ht, List.mem_append] at h
  refine h.resolve_left fun hblank => ?_
  rw [hb c hblank] at hc
  cases hc

theorem trimStart_append {b : Text} (hb : ∀ c ∈ b.head?, isBlank c = false) (a : Text) :
    trimStart (a ++ b) = trimStart a ++ b := by
  rw [trimStart, trimStart, List.dropWhile_append]
  split
  · next hnil =>
    rw [List.isEmpty_iff.mp hnil, List.nil_append]
    exact trimStart_eq_self hb
  · rfl

/-- In front of a tight text only the start is trimmed. -/
theorem trim_append_tight {b : Text} (hb : Tight b) (hne : b ≠ []) (a : Text) :
    trim (a ++ b) = trimStart a ++ b := by
  rw [trim, trimStart_append hb.1, trimEnd_eq_self]
  rw [List.getLast?_append_of_ne_nil _ hne]
  exact hb.2

theorem trimEnd_append_cons {c : Char} (hc : isBlank c = false) (a b : Text) :
    trimEnd (a ++ c :: b) = a ++ c :: trimEnd b := by
  obtain ⟨e, he, hb⟩ := exists_trimEnd b
  refine rdropWhile_eq_iff.mpr ⟨⟨e, he, by simp [← hb]⟩, fun x hx => ?_⟩
  rw [List.getLast?_append_of_ne_nil _ (by simp)] at hx
  by_cases hnil : trimEnd b = []
  · rw [hnil, List.getLast?_singleton] at hx
    cases hx
    exact hc
  · rw [List.getLast?_cons_of_ne_nil hnil] at hx
    exact getLast?_trimEnd b x hx

theorem trim_blank_append {b : Text} (hb : AllBlank b) (t : Text) : trim (b ++ t) = trim t := by
  rw [trim, trim, trimStart, trimStart, List.dropWhile_append_of_pos hb]

theorem trimEnd_append_blank {e : Text} (t : Text) (he : AllBlank e) :
    trimEnd (t ++ e) = trimEnd t := by
  obtain ⟨b, hb, ht⟩ := exists_trimEnd t
  refine rdropWhile_eq_iff.mpr ⟨⟨b ++ e, fun c hc => (List.mem_append.mp hc).elim (hb c) (he c), ?_⟩,
    getLast?_trimEnd t⟩
  rw [← List.append_assoc, ← ht]

/-- A tight text with white space around it is what trimming leaves. -/
theorem trim_between {b e : Text} (hb : AllBlank b) (ht : Tight t) (he : AllBlank e) :
    trim (b ++ (t ++ e)) = t := by
  rw [trim_blank_append hb, trim]
  by_cases hne : t = []
  · have hstart : trimStart e = [] := by
      simpa [trimStart, AllBlank] using he
    rw [hne, List.nil_append, hstart]
    rfl
  · have hhead : ∀ c ∈ (t ++ e).head?, isBlank c = false := by
      rw [List.head?_append_of_ne_nil _ hne]
      exact ht.1
    rw [trimStart_eq_self hhead]
    exact rdropWhile_eq_iff.mpr ⟨⟨e, he, rfl⟩, ht.2⟩

theorem trim_append_blank {e : Text} (t : Text) (he : AllBlank e) : trim (t ++ e) = trim t := by
  obtain ⟨b, e', hb, he', ht⟩ := exists_trim t
  have hend : AllBlank (e' ++ e) := fun c hc => (List.mem_append.mp hc).elim (he' c) (he c)
  have htext : t ++ e = b ++ (trim t ++ (e' ++ e)) := by
    rw [← List.append_assoc, ← List.append_assoc, ← ht]
  rw [htext, trim_between hb (tight_trim t) hend]

end CallManual.Text
