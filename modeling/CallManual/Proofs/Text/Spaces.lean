import CallManual.Proofs.Text.Cut
import CallManual.Proofs.Text.Words

/-!
# Runs of spaces

Texts that differ only in the lengths of their runs of spaces have one squeezed form in common, in
which each run is a single space. Trimming, words, and cuts at other characters do not depend on the
lengths: they may be taken of the squeezed form as well.
-/
namespace CallManual.Text

variable {a b t u : Text} {c : Char} {p : Char → Bool} {m n : ℕ}

/-- The second text is the first with runs of spaces of other lengths, none of them empty. -/
inductive Respaces : Text → Text → Prop
  | nil : Respaces [] []
  | mark {c : Char} {t u : Text} : c ≠ ' ' → Respaces t u → Respaces (c :: t) (c :: u)
  | run {m n : ℕ} {t u : Text} : 0 < m → 0 < n → Respaces t u →
      Respaces (List.replicate m ' ' ++ t) (List.replicate n ' ' ++ u)

/-- Each run of spaces as a single space. -/
def squeeze : Text → Text
  | [] => []
  | c :: t => if c = ' ' ∧ t.head? = some ' ' then squeeze t else c :: squeeze t

theorem squeeze_cons (h : ¬ (c = ' ' ∧ t.head? = some ' ')) : squeeze (c :: t) = c :: squeeze t :=
  if_neg h

theorem squeeze_cons_of_ne (hc : c ≠ ' ') (t : Text) : squeeze (c :: t) = c :: squeeze t :=
  squeeze_cons fun h => hc h.1

theorem squeeze_space_cons (h : t.head? = some ' ') : squeeze (' ' :: t) = squeeze t :=
  if_pos ⟨rfl, h⟩

@[simp] theorem squeeze_singleton (c : Char) : squeeze [c] = [c] := squeeze_cons (by simp)

theorem head?_squeeze (t : Text) : (squeeze t).head? = t.head? := by
  induction t with
  | nil => rfl
  | cons c t ih =>
    by_cases h : c = ' ' ∧ t.head? = some ' '
    · rw [h.1, squeeze_space_cons h.2, ih, h.2, List.head?_cons]
    · rw [squeeze_cons h, List.head?_cons, List.head?_cons]

theorem squeeze_eq_nil_iff : squeeze t = [] ↔ t = [] := by
  rw [← List.head?_eq_none_iff, head?_squeeze, List.head?_eq_none_iff]

theorem mem_squeeze {x : Char} : x ∈ squeeze t ↔ x ∈ t := by
  induction t with
  | nil => rfl
  | cons c t ih =>
    by_cases h : c = ' ' ∧ t.head? = some ' '
    · rw [h.1, squeeze_space_cons h.2, ih, List.mem_cons]
      constructor
      · exact Or.inr
      · rintro (rfl | hx)
        · exact List.mem_of_mem_head? h.2
        · exact hx
    · rw [squeeze_cons h, List.mem_cons, List.mem_cons, ih]

theorem squeeze_squeeze (t : Text) : squeeze (squeeze t) = squeeze t := by
  induction t with
  | nil => rfl
  | cons c t ih =>
    by_cases h : c = ' ' ∧ t.head? = some ' '
    · rw [h.1, squeeze_space_cons h.2, ih]
    · rw [squeeze_cons h, squeeze_cons (by rwa [head?_squeeze]), ih]

theorem squeeze_eq_self (h : ' ' ∉ t) : squeeze t = t := by
  induction t with
  | nil => rfl
  | cons c t ih =>
    rw [List.mem_cons, not_or] at h
    rw [squeeze_cons_of_ne (Ne.symm h.1), ih h.2]

/-- A cut that is not inside a run of spaces goes through. -/
theorem squeeze_append (h : ¬ (a.getLast? = some ' ' ∧ b.head? = some ' ')) :
    squeeze (a ++ b) = squeeze a ++ squeeze b := by
  induction a with
  | nil => rfl
  | cons c a ih =>
    cases a with
    | nil =>
      rw [squeeze_singleton, List.singleton_append, List.singleton_append]
      exact squeeze_cons (by simpa using h)
    | cons d a =>
      have ih : squeeze (d :: (a ++ b)) = squeeze (d :: a) ++ squeeze b :=
        ih (by rwa [List.getLast?_cons_cons] at h)
      by_cases hc : c = ' ' ∧ d = ' '
      · obtain ⟨rfl, rfl⟩ := hc
        have hspaces (s : Text) : squeeze (' ' :: ' ' :: s) = squeeze (' ' :: s) :=
          squeeze_space_cons rfl
        rw [List.cons_append, List.cons_append, hspaces, hspaces, ih]
      · have hd (s : Text) : squeeze (c :: d :: s) = c :: squeeze (d :: s) :=
          squeeze_cons (by simpa using hc)
        rw [List.cons_append, List.cons_append, hd, hd, ih, List.cons_append]

theorem squeeze_append_cons (hc : c ≠ ' ') (a b : Text) :
    squeeze (a ++ c :: b) = squeeze a ++ c :: squeeze b := by
  rw [squeeze_append (by simp [hc]), squeeze_cons_of_ne hc]

theorem squeeze_append_space (h : a.getLast? = some ' ') : squeeze (a ++ [' ']) = squeeze a := by
  induction a with
  | nil => cases h
  | cons c a ih =>
    cases a with
    | nil =>
      obtain rfl : c = ' ' := by simpa using h
      rfl
    | cons d a =>
      have ih := ih (by rwa [List.getLast?_cons_cons] at h)
      rw [List.cons_append, squeeze, squeeze, ih]
      rfl

theorem squeeze_reverse (t : Text) : squeeze t.reverse = (squeeze t).reverse := by
  induction t with
  | nil => rfl
  | cons c t ih =>
    rw [List.reverse_cons]
    by_cases h : c = ' ' ∧ t.head? = some ' '
    · rw [h.1, squeeze_append_space (by rw [List.getLast?_reverse, h.2]), ih,
        squeeze_space_cons h.2]
    · rw [squeeze_append, ih, squeeze_cons h, List.reverse_cons, squeeze_singleton]
      rw [List.getLast?_reverse]
      simpa [and_comm] using h

theorem getLast?_squeeze (t : Text) : (squeeze t).getLast? = t.getLast? := by
  rw [← List.head?_reverse, ← squeeze_reverse, head?_squeeze, List.head?_reverse]

theorem trimStart_squeeze (t : Text) : trimStart (squeeze t) = squeeze (trimStart t) := by
  induction t with
  | nil => rfl
  | cons c t ih =>
    have hdrop (s : Text) (hc : isBlank c = true) : trimStart (c :: s) = trimStart s := by
      simp [trimStart, hc]
    by_cases h : c = ' ' ∧ t.head? = some ' '
    · rw [hdrop t (h.1 ▸ isBlank_space), ← ih, h.1, squeeze_space_cons h.2]
    · rw [squeeze_cons h]
      by_cases hc : isBlank c = true
      · rw [hdrop _ hc, hdrop _ hc, ih]
      · rw [trimStart_eq_self (by simpa using hc), trimStart_eq_self (by simpa using hc),
          squeeze_cons h]

theorem trimEnd_squeeze (t : Text) : trimEnd (squeeze t) = squeeze (trimEnd t) := by
  have hend (s : Text) : trimEnd s = (trimStart s.reverse).reverse := rfl
  rw [hend, hend, squeeze_reverse, ← trimStart_squeeze, squeeze_reverse]

theorem trim_squeeze (t : Text) : trim (squeeze t) = squeeze (trim t) := by
  rw [trim, trim, trimStart_squeeze, trimEnd_squeeze]

theorem words_append_of_head? (h : b.head? = some c) (hc : isBlank c = true) (a : Text) :
    words (a ++ b) = words a ++ words b := by
  cases b with
  | nil => cases h
  | cons d b =>
    obtain rfl : d = c := by simpa using h
    rw [words_append_blank a b hc, words_cons_blank b hc]

theorem words_squeeze_cons_blank (hc : isBlank c = true) (t : Text) :
    words (squeeze (c :: t)) = words (squeeze t) := by
  by_cases h : c = ' ' ∧ t.head? = some ' '
  · rw [h.1, squeeze_space_cons h.2]
  · rw [squeeze_cons h, words_cons_blank _ hc]

theorem words_squeeze (t : Text) : words (squeeze t) = words t := by
  have hword {w : Text} (hw : IsWord w) : ' ' ∉ w := fun hm => by
    simpa [isBlank_space] using hw.2 ' ' hm
  induction t using words_induction with
  | nil => rfl
  | blank c t hc ih => rw [words_squeeze_cons_blank hc, ih, words_cons_blank t hc]
  | last w hw => rw [squeeze_eq_self (hword hw)]
  | word w c t hw hc ih =>
    have hlast : w.getLast? ≠ some ' ' := fun hs => hword hw (List.mem_of_mem_getLast? hs)
    rw [squeeze_append (by simp [hlast]), squeeze_eq_self (hword hw),
      words_append_of_head? (head?_squeeze (c :: t)) hc, words_squeeze_cons_blank hc, ih,
      words_append_blank w t hc]

theorem cutFirst?_squeeze (hp : p ' ' = false) (t : Text) :
    cutFirst? p (squeeze t) = (cutFirst? p t).map fun (a, b) => (squeeze a, squeeze b) := by
  cases h : cutFirst? p t with
  | none =>
    rw [cutFirst?_eq_none_iff] at h
    exact cutFirst?_eq_none_iff.mpr fun x hx => h x (mem_squeeze.mp hx)
  | some sides =>
    obtain ⟨a, b⟩ := sides
    obtain ⟨c, hc, ha, rfl⟩ := cutFirst?_eq_some_iff.mp h
    have hspace : c ≠ ' ' := by
      rintro rfl
      simp [hp] at hc
    rw [squeeze_append_cons hspace]
    exact cutFirst?_append hc (fun x hx => ha x (mem_squeeze.mp hx)) _

/-- The last blank stays; what is in front of it may lose a space at its end. -/
theorem cutLast?_squeeze (h : cutLast? isBlank t = some (a, b)) :
    ∃ a', cutLast? isBlank (squeeze t) = some (a', b) ∧ trimEnd a' = squeeze (trimEnd a) := by
  obtain ⟨c, hc, hb, rfl⟩ := cutLast?_eq_some_iff.mp h
  have hspace : ' ' ∉ b := fun hm => by simpa [isBlank_space] using hb ' ' hm
  have hhead : b.head? ≠ some ' ' := fun hh => hspace (List.mem_of_mem_head? hh)
  have hsplit : squeeze (a ++ c :: b) = squeeze (a ++ [c]) ++ b := by
    rw [List.append_cons, squeeze_append (by simp [hhead]), squeeze_eq_self hspace]
  rw [hsplit]
  by_cases hrun : c = ' ' ∧ a.getLast? = some ' '
  · obtain ⟨rfl, hlast⟩ := hrun
    obtain ⟨s, hs⟩ : ∃ s, squeeze a = s ++ [' '] := by
      rw [← getLast?_squeeze] at hlast
      exact ⟨_, (List.dropLast_append_getLast? ' ' hlast).symm⟩
    refine ⟨s, ?_, ?_⟩
    · rw [squeeze_append_space hlast, hs, List.append_assoc]
      exact cutLast?_append hc hb s
    · rw [← trimEnd_squeeze, hs, trimEnd_append_blank s (by simpa [AllBlank] using hc)]
  · refine ⟨squeeze a, ?_, trimEnd_squeeze a⟩
    rw [squeeze_append (by simpa [and_comm] using hrun), squeeze_singleton, List.append_assoc]
    exact cutLast?_append hc hb _

theorem dropSuffix?_squeeze (hc : c ≠ ' ') (t : Text) :
    dropSuffix? [c] (squeeze t) = (dropSuffix? [c] t).map squeeze := by
  cases h : dropSuffix? [c] t with
  | some a =>
    rw [dropSuffix?_eq_some_iff.mp h, squeeze_append_cons hc]
    exact dropSuffix?_eq_some_iff.mpr rfl
  | none =>
    rw [dropSuffix?_singleton_eq_none_iff, ← getLast?_squeeze] at h
    exact dropSuffix?_singleton_eq_none_iff.mpr h

/-! ## Squeezed forms decide -/

theorem squeeze_replicate_append (hm : 0 < m) (t : Text) :
    squeeze (List.replicate m ' ' ++ t) = squeeze (' ' :: t) := by
  induction m with
  | zero => cases hm
  | succ m ih =>
    cases m with
    | zero => rfl
    | succ m =>
      rw [List.replicate_succ, List.cons_append, squeeze_space_cons rfl]
      exact ih (by omega)

theorem Respaces.squeeze_eq (h : Respaces t u) : squeeze t = squeeze u := by
  induction h with
  | nil => rfl
  | mark hc _ ih => rw [squeeze_cons_of_ne hc, squeeze_cons_of_ne hc, ih]
  | @run m n t u hm hn _ ih =>
    rw [squeeze_replicate_append hm, squeeze_replicate_append hn, squeeze, squeeze, ih,
      ← head?_squeeze t, ih, head?_squeeze u]

theorem exists_run (t : Text) :
    ∃ m r, ' ' :: t = List.replicate (m + 1) ' ' ++ r ∧ r.head? ≠ some ' ' := by
  induction t with
  | nil => exact ⟨0, [], rfl, by simp⟩
  | cons c t ih =>
    by_cases hc : c = ' '
    · obtain ⟨m, r, ht, hr⟩ := ih
      exact ⟨m + 1, r, hc ▸ congrArg (' ' :: ·) ht, hr⟩
    · exact ⟨0, c :: t, rfl, by simpa using hc⟩

theorem exists_cons_of_squeeze_eq (h : squeeze t = c :: u) : ∃ r, t = c :: r := by
  rw [← List.head?_eq_some_iff, ← head?_squeeze, h, List.head?_cons]

/-- The squeezed form of a text that starts with a space goes on behind the run. -/
theorem exists_run_of_squeeze_eq (h : squeeze t = ' ' :: u) :
    ∃ m r, 0 < m ∧ t = List.replicate m ' ' ++ r ∧ squeeze r = u := by
  obtain ⟨s, rfl⟩ := exists_cons_of_squeeze_eq h
  obtain ⟨m, r, hs, hr⟩ := exists_run s
  refine ⟨m + 1, r, by omega, hs, ?_⟩
  rw [hs, squeeze_replicate_append (by omega), squeeze_cons (by simp [hr])] at h
  exact (List.cons.inj h).2

theorem exists_mark_of_squeeze_eq (hc : c ≠ ' ') (h : squeeze t = c :: u) :
    ∃ r, t = c :: r ∧ squeeze r = u := by
  obtain ⟨r, rfl⟩ := exists_cons_of_squeeze_eq h
  rw [squeeze_cons_of_ne hc] at h
  exact ⟨r, rfl, (List.cons.inj h).2⟩

/-- Texts with the same squeezed form differ in the lengths of runs only. The induction is on the
squeezed form, which loses one character for each run and each mark. -/
theorem respaces_iff_squeeze_eq : Respaces t u ↔ squeeze t = squeeze u := by
  refine ⟨Respaces.squeeze_eq, fun h => ?_⟩
  obtain ⟨s, ht⟩ : ∃ s, squeeze t = s := ⟨_, rfl⟩
  have hu := h.symm.trans ht
  induction s generalizing t u with
  | nil =>
    rw [squeeze_eq_nil_iff.mp ht, squeeze_eq_nil_iff.mp hu]
    exact .nil
  | cons c s ih =>
    by_cases hc : c = ' '
    · subst hc
      obtain ⟨m, t, hm, rfl, htail⟩ := exists_run_of_squeeze_eq ht
      obtain ⟨n, u, hn, rfl, hutail⟩ := exists_run_of_squeeze_eq hu
      exact .run hm hn (ih (htail.trans hutail.symm) htail hutail)
    · obtain ⟨t, rfl, htail⟩ := exists_mark_of_squeeze_eq hc ht
      obtain ⟨u, rfl, hutail⟩ := exists_mark_of_squeeze_eq hc hu
      exact .mark hc (ih (htail.trans hutail.symm) htail hutail)

instance : DecidableRel Respaces := fun _ _ => decidable_of_iff _ respaces_iff_squeeze_eq.symm

end CallManual.Text
