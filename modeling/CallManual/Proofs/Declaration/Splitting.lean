import CallManual.Proofs.Declaration.Respacing
import Mathlib.Data.List.Infix

/-!
# Splitting a parameter list

The pieces of a list are free of separators and join to the list again. Two separators never
overlap, so the pieces of joined texts are the pieces of each, and a longer list has no fewer
pieces.
-/
namespace CallManual.Declaration
open Text

variable {a b t w : Text} {ws : List Text}

theorem separator_prefix_cons_iff {c : Char} :
    separator <+: c :: t ↔ c = ',' ∧ t.head? = some ' ' := by
  cases t <;> simp [separator, eq_comm]

/-- The last case of splitting a list. -/
theorem not_separator_prefix_cons {c : Char} (h : ∀ s, c = ',' → t = ' ' :: s → False) :
    ¬ separator <+: c :: t := by
  rintro ⟨s, hs⟩
  obtain ⟨rfl, rfl⟩ := List.cons.inj hs
  exact h s rfl rfl

theorem not_separator_prefix_of_isBlank {c : Char} (hc : isBlank c = true) (t : Text) :
    ¬ separator <+: c :: t := by
  rw [separator_prefix_cons_iff]
  rintro ⟨rfl, -⟩
  exact absurd hc (by decide)

theorem separator_infix_append_iff : separator <:+: a ++ b ↔
    separator <:+: a ∨ separator <:+: b ∨ (a.getLast? = some ',' ∧ b.head? = some ' ') := by
  induction a with
  | nil => simp [separator]
  | cons x a ih =>
    rw [List.cons_append, List.infix_cons_iff, List.infix_cons_iff, separator_prefix_cons_iff,
      separator_prefix_cons_iff, ih]
    cases a with
    | nil => simp [separator, and_comm, or_comm]
    | cons y a =>
      rw [List.getLast?_cons_cons, List.cons_append, List.head?_cons, List.head?_cons]
      tauto

@[simp] theorem join_nil : join separator [] = [] := rfl

@[simp] theorem join_singleton (w : Text) : join separator [w] = w := List.intercalate_singleton

theorem join_cons_of_ne_nil (w : Text) (h : ws ≠ []) :
    join separator (w :: ws) = w ++ ',' :: ' ' :: join separator ws := by
  rw [join, List.intercalate_cons_of_ne_nil h]
  simp [separator, join]

theorem splitParameters_ne_nil (t : Text) : splitParameters t ≠ [] := by
  fun_induction splitParameters t with
  | case1 => simp
  | case2 => simp
  | case3 c t _ ih =>
    obtain ⟨w, ws, hw⟩ := List.exists_cons_of_ne_nil ih
    simp [hw]

theorem splitParameters_cons {c : Char} (h : ¬ separator <+: c :: t) :
    splitParameters (c :: t) = (splitParameters t).modifyHead (c :: ·) := by
  rw [splitParameters]
  rintro s rfl rfl
  exact h ⟨s, rfl⟩

theorem join_splitParameters (t : Text) : join separator (splitParameters t) = t := by
  fun_induction splitParameters t with
  | case1 => rfl
  | case2 t ih => rw [join_cons_of_ne_nil [] (splitParameters_ne_nil t), ih, List.nil_append]
  | case3 c t _ ih =>
    obtain ⟨w, ws, hw⟩ := List.exists_cons_of_ne_nil (splitParameters_ne_nil t)
    rw [hw] at ih ⊢
    by_cases hs : ws = []
    · subst hs
      simpa using ih
    · rw [join_cons_of_ne_nil w hs] at ih
      rw [List.modifyHead_cons, join_cons_of_ne_nil _ hs, List.cons_append, ih]

theorem infix_join_of_mem (h : w ∈ ws) : w <:+: join separator ws := by
  induction ws with
  | nil => cases h
  | cons v ws ih =>
    by_cases hs : ws = []
    · subst hs
      rw [List.mem_singleton.mp h, join_singleton]
    · rw [join_cons_of_ne_nil v hs]
      rcases List.mem_cons.mp h with rfl | h
      · exact List.infix_append_left
      · exact List.infix_append_of_infix_right (List.infix_cons (List.infix_cons (ih h)))

theorem infix_of_mem_splitParameters (h : w ∈ splitParameters t) : w <:+: t :=
  join_splitParameters t ▸ infix_join_of_mem h

theorem splitParameters_eq_singleton (h : ¬ separator <:+: w) : splitParameters w = [w] := by
  induction w with
  | nil => rfl
  | cons c w ih =>
    rw [List.infix_cons_iff, not_or] at h
    rw [splitParameters_cons h.1, ih h.2, List.modifyHead_cons]

theorem splitParameters_head_isPrefix (h : splitParameters t = w :: ws) : w <+: t := by
  have ht := join_splitParameters t
  rw [h] at ht
  by_cases hs : ws = []
  · subst hs
    exact ⟨[], by simpa using ht⟩
  · exact ⟨_, (join_cons_of_ne_nil w hs).symm.trans ht⟩

theorem not_separator_infix_of_mem : ∀ w ∈ splitParameters t, ¬ separator <:+: w := by
  fun_induction splitParameters t with
  | case1 => simp [separator]
  | case2 t ih => simpa [separator] using ih
  | case3 c t h ih =>
    obtain ⟨w, ws, hw⟩ := List.exists_cons_of_ne_nil (splitParameters_ne_nil t)
    rw [hw] at ih
    rw [hw, List.modifyHead_cons]
    intro v hv
    rcases List.mem_cons.mp hv with rfl | hv
    · rw [List.infix_cons_iff, not_or, separator_prefix_cons_iff]
      refine ⟨?_, ih w List.mem_cons_self⟩
      rintro ⟨rfl, hspace⟩
      obtain ⟨s, rfl⟩ := splitParameters_head_isPrefix hw
      obtain ⟨d, w, rfl⟩ := List.exists_cons_of_ne_nil (by rintro rfl; simp at hspace : w ≠ [])
      rw [List.head?_cons, Option.some.injEq] at hspace
      subst hspace
      exact h (w ++ s) rfl rfl
    · exact ih v (List.mem_cons_of_mem _ hv)

/-- A separator cuts wherever it stands. -/
theorem splitParameters_append_separator (a b : Text) :
    splitParameters (a ++ ',' :: ' ' :: b) = splitParameters a ++ splitParameters b := by
  fun_induction splitParameters a with
  | case1 => rw [List.nil_append, splitParameters, List.singleton_append]
  | case2 a ih => rw [List.cons_append, List.cons_append, splitParameters, ih, List.cons_append]
  | case3 c a h ih =>
    rw [List.cons_append, splitParameters_cons, ih]
    · obtain ⟨w, ws, hw⟩ := List.exists_cons_of_ne_nil (splitParameters_ne_nil a)
      rw [hw, List.cons_append, List.modifyHead_cons, List.modifyHead_cons, List.cons_append]
    · rw [separator_prefix_cons_iff]
      rintro ⟨rfl, ha⟩
      cases a with
      | nil => simp at ha
      | cons d a =>
        rw [List.cons_append, List.head?_cons, Option.some.injEq] at ha
        subst ha
        exact h a rfl rfl

theorem splitParameters_join (h : ws ≠ []) :
    splitParameters (join separator ws) = ws.flatMap splitParameters := by
  induction ws with
  | nil => exact absurd rfl h
  | cons w ws ih =>
    by_cases hs : ws = []
    · subst hs
      simp
    · rw [join_cons_of_ne_nil w hs, splitParameters_append_separator, ih hs, List.flatMap_cons]

theorem splitParameters_join_eq (hne : ws ≠ []) (h : ∀ w ∈ ws, ¬ separator <:+: w) :
    splitParameters (join separator ws) = ws := by
  rw [splitParameters_join hne]
  induction ws with
  | nil => rfl
  | cons w ws ih =>
    have hw := splitParameters_eq_singleton (h w List.mem_cons_self)
    by_cases hs : ws = []
    · simpa [hs] using hw
    · rw [List.flatMap_cons, hw, ih hs fun v hv => h v (List.mem_cons_of_mem _ hv),
        List.singleton_append]

theorem length_splitParameters_cons_le (c : Char) (t : Text) :
    (splitParameters t).length ≤ (splitParameters (c :: t)).length := by
  by_cases h : separator <+: c :: t
  · obtain ⟨s, hs⟩ := h
    obtain ⟨rfl, rfl⟩ := List.cons.inj hs
    show (splitParameters (' ' :: s)).length ≤ (splitParameters (',' :: ' ' :: s)).length
    rw [splitParameters_cons (by simp [separator]), splitParameters]
    simp
  · rw [splitParameters_cons h, List.length_modifyHead]

theorem length_splitParameters_append_le (a b : Text) :
    (splitParameters a).length ≤ (splitParameters (a ++ b)).length := by
  fun_induction splitParameters a with
  | case1 => exact List.length_pos_of_ne_nil (splitParameters_ne_nil _)
  | case2 a ih => simpa [splitParameters] using ih
  | case3 c a _ ih =>
    rw [List.length_modifyHead]
    exact ih.trans (length_splitParameters_cons_le c (a ++ b))

/-- A stretch of a list has no more pieces than the list. -/
theorem length_splitParameters_le_of_isInfix (h : a <:+: t) :
    (splitParameters a).length ≤ (splitParameters t).length := by
  obtain ⟨s, e, rfl⟩ := h
  rw [List.append_assoc]
  induction s with
  | nil => exact length_splitParameters_append_le a e
  | cons c s ih => exact ih.trans (length_splitParameters_cons_le c _)

/-- What holds no separator and does not start with a space adds no piece. -/
theorem length_splitParameters_append_of_unbroken (hb : ¬ separator <:+: b)
    (hs : b.head? ≠ some ' ') (a : Text) :
    (splitParameters (a ++ b)).length = (splitParameters a).length := by
  fun_induction splitParameters a with
  | case1 => rw [List.nil_append, splitParameters_eq_singleton hb]; rfl
  | case2 a ih => simpa [splitParameters] using ih
  | case3 c a h ih =>
    rw [List.cons_append, splitParameters_cons, List.length_modifyHead, List.length_modifyHead, ih]
    rw [separator_prefix_cons_iff]
    rintro ⟨rfl, ha⟩
    cases a with
    | nil => exact hs ha
    | cons d a =>
      rw [List.cons_append, List.head?_cons, Option.some.injEq] at ha
      subst ha
      exact h a rfl rfl

end CallManual.Declaration
