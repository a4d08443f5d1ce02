import CallManual.Text.Basic
import Mathlib.Data.List.Infix

/-!
# Cuts

What the cuts of a text find, as equations between texts: a cut succeeds exactly when the text is
the two sides put together with what was looked for between them.
-/
namespace CallManual.Text

variable {p : Char → Bool} {t a b w : Text} {c : Char} {i : ℕ}

theorem cutFirst?_append (hc : p c = true) (ha : ∀ x ∈ a, p x = false) (b : Text) :
    cutFirst? p (a ++ c :: b) = some (a, b) := by
  induction a with
  | nil => simp [cutFirst?, hc]
  | cons d a ih =>
    rw [List.forall_mem_cons] at ha
    rw [List.cons_append, cutFirst?, if_neg (by simp [ha.1]), ih ha.2]
    rfl

theorem cutFirst?_eq_some_iff : cutFirst? p t = some (a, b) ↔
    ∃ c, p c = true ∧ (∀ x ∈ a, p x = false) ∧ t = a ++ c :: b := by
  constructor
  · intro h
    induction t generalizing a with
    | nil => cases h
    | cons d t ih =>
      by_cases hd : p d = true
      · rw [cutFirst?, if_pos hd] at h
        cases h
        exact ⟨d, hd, by simp, rfl⟩
      · rw [cutFirst?, if_neg hd] at h
        obtain ⟨⟨a', b'⟩, hcut, heq⟩ := Option.map_eq_some_iff.mp h
        cases heq
        obtain ⟨c, hc, ha, rfl⟩ := ih hcut
        exact ⟨c, hc, by simpa [hd] using ha, rfl⟩
  · rintro ⟨c, hc, ha, rfl⟩
    exact cutFirst?_append hc ha b

theorem cutFirst?_eq_none_iff : cutFirst? p t = none ↔ ∀ x ∈ t, p x = false := by
  induction t with
  | nil => simp [cutFirst?]
  | cons d t ih => by_cases hd : p d = true <;> simp [cutFirst?, hd, ih]

theorem cutLast?_eq_none_iff : cutLast? p t = none ↔ ∀ x ∈ t, p x = false := by
  induction t with
  | nil => simp [cutLast?]
  | cons d t ih =>
    cases h : cutLast? p t with
    | none =>
      have hnone := ih.mp h
      by_cases hd : p d = true
      · simp [cutLast?, h, hd]
      · simpa [cutLast?, h, hd] using hnone
    | some ab =>
      have hne : ¬ ∀ x ∈ t, p x = false := fun hall => by simp [ih.mpr hall] at h
      simp only [cutLast?, h, reduceCtorEq, false_iff]
      exact fun hall => hne fun x hx => hall x (List.mem_cons_of_mem _ hx)

theorem cutLast?_append (hc : p c = true) (hb : ∀ x ∈ b, p x = false) (a : Text) :
    cutLast? p (a ++ c :: b) = some (a, b) := by
  induction a with
  | nil => simp [cutLast?, cutLast?_eq_none_iff.mpr hb, hc]
  | cons d a ih => rw [List.cons_append, cutLast?, ih]

theorem cutLast?_eq_some_iff : cutLast? p t = some (a, b) ↔
    ∃ c, p c = true ∧ (∀ x ∈ b, p x = false) ∧ t = a ++ c :: b := by
  constructor
  · intro h
    induction t generalizing a b with
    | nil => cases h
    | cons d t ih =>
      cases hcut : cutLast? p t with
      | none =>
        by_cases hd : p d = true
        · rw [cutLast?, hcut] at h
          simp only [hd, if_true, Option.some.injEq, Prod.mk.injEq] at h
          obtain ⟨rfl, rfl⟩ := h
          exact ⟨d, hd, cutLast?_eq_none_iff.mp hcut, rfl⟩
        · simp [cutLast?, hcut, hd] at h
      | some ab =>
        rw [cutLast?, hcut] at h
        cases h
        obtain ⟨c, hc, hb, rfl⟩ := ih hcut
        exact ⟨c, hc, hb, rfl⟩
  · rintro ⟨c, hc, hb, rfl⟩
    exact cutLast?_append hc hb a

theorem cutAt?_eq_none_iff : cutAt? w t = none ↔ ¬ w <:+: t := by
  induction t with
  | nil => cases w <;> simp [cutAt?]
  | cons c t ih =>
    by_cases h : w <+: c :: t
    · simp [cutAt?, h, h.isInfix]
    · simp [cutAt?, h, ih, List.infix_cons_iff]

/-- No end of the text but the whole of it stands at its front as well. -/
def Unbordered (w : Text) : Prop := w ≠ [] ∧ ∀ v ∈ w.tail.tails, v ≠ [] → ¬ v <+: w

instance : DecidablePred Unbordered := fun w =>
  inferInstanceAs (Decidable (w ≠ [] ∧ ∀ v ∈ w.tail.tails, v ≠ [] → ¬ v <+: w))

/-- Two occurrences of a text without borders do not overlap. -/
theorem Unbordered.isPrefix_left (hw : Unbordered w) (ha : a ≠ []) (h : w <+: a ++ (w ++ b)) :
    w <+: a := by
  obtain ⟨r, hr⟩ := h
  rcases List.append_eq_append_iff.mp hr with ⟨v, rfl, -⟩ | ⟨v, hv, hrest⟩
  · exact List.prefix_append w v
  · obtain ⟨c, a, rfl⟩ := List.exists_cons_of_ne_nil ha
    have hfront : v <+: w := by
      refine List.prefix_of_prefix_length_le (hrest ▸ List.prefix_append v r)
        (List.prefix_append w b) ?_
      simp only [hv, List.length_append, List.length_cons]
      omega
    have hend : v ∈ w.tail.tails := by
      rw [List.mem_tails, hv]
      exact List.suffix_append a v
    by_cases hne : v = []
    · simp [hv, hne]
    · exact absurd hfront (hw.2 v hend hne)

/-- The first occurrence of a text without borders is the one with none in front of it. -/
theorem cutAt?_eq_some_iff (hw : Unbordered w) :
    cutAt? w t = some (a, b) ↔ t = a ++ b ∧ w <+: b ∧ ¬ w <:+: a := by
  constructor
  · intro h
    induction t generalizing a b with
    | nil => simp [cutAt?, hw.1] at h
    | cons c t ih =>
      by_cases hp : w <+: c :: t
      · rw [cutAt?, if_pos (List.isPrefixOf_iff_prefix.mpr hp)] at h
        cases h
        exact ⟨rfl, hp, by simpa using hw.1⟩
      · rw [cutAt?, if_neg (mt List.isPrefixOf_iff_prefix.mp hp)] at h
        obtain ⟨⟨front, rest⟩, hcut, heq⟩ := Option.map_eq_some_iff.mp h
        cases heq
        obtain ⟨rfl, hb, ha⟩ := ih hcut
        refine ⟨rfl, hb, ?_⟩
        rw [List.infix_cons_iff, not_or]
        exact ⟨fun hc => hp (hc.trans (List.prefix_append (c :: front) b)), ha⟩
  · rintro ⟨rfl, ⟨r, rfl⟩, ha⟩
    induction a with
    | nil =>
      obtain ⟨c, w, rfl⟩ := List.exists_cons_of_ne_nil hw.1
      simp [cutAt?]
    | cons c a ih =>
      rw [List.infix_cons_iff, not_or] at ha
      have hp : ¬ w <+: c :: (a ++ (w ++ r)) := fun hc => ha.1 (hw.isPrefix_left (by simp) hc)
      rw [List.cons_append, cutAt?, if_neg (mt List.isPrefixOf_iff_prefix.mp hp), ih ha.2]
      rfl

theorem afterLast?_eq_none_iff (hw : w ≠ []) : afterLast? w t = none ↔ ¬ w <:+: t := by
  induction t with
  | nil => simp [afterLast?, hw]
  | cons c t ih =>
    cases h : afterLast? w t with
    | some b =>
      have hinfix : w <:+: t := by
        by_contra hcon
        simp [ih.mpr hcon] at h
      simpa [afterLast?, h] using List.infix_cons hinfix
    | none => simp [afterLast?, h, ih.mp h, List.infix_cons_iff, List.isPrefixOf_iff_prefix]

/-- Behind the place where the last occurrence starts there is no further one. -/
theorem exists_of_afterLast? (hw : w ≠ []) (h : afterLast? w t = some b) :
    ∃ a, t = a ++ (w ++ b) ∧ ¬ w <:+: (w ++ b).tail := by
  induction t with
  | nil => simp [afterLast?, hw] at h
  | cons c t ih =>
    cases hlater : afterLast? w t with
    | some x =>
      rw [afterLast?, hlater, Option.some.injEq] at h
      obtain ⟨a, rfl, hlast⟩ := ih (h ▸ hlater)
      exact ⟨c :: a, rfl, hlast⟩
    | none =>
      simp only [afterLast?, hlater, List.isPrefixOf_iff_prefix, Option.ite_none_right_eq_some,
        Option.some.injEq] at h
      obtain ⟨⟨x, hx⟩, rfl⟩ := h
      refine ⟨[], ?_, ?_⟩
      · rw [← hx, List.drop_left, List.nil_append]
      · rw [← hx, List.drop_left, hx]
        exact (afterLast?_eq_none_iff hw).mp hlater

/-- An occurrence that is not in the front ends behind it. -/
theorem length_lt_of_isPrefix_drop (hw : ¬ w <:+: a) (h : w <+: (a ++ b).drop i) :
    a.length < i + w.length := by
  by_contra hle
  rw [List.drop_append_of_le_length (by omega)] at h
  have hfront : w <+: a.drop i :=
    List.prefix_of_prefix_length_le h (List.prefix_append _ b) (by rw [List.length_drop]; omega)
  exact hw (hfront.isInfix.trans (List.drop_suffix i a).isInfix)

/-- An occurrence that is not in the end starts in front of it. -/
theorem lt_length_of_isPrefix_drop (hw : ¬ w <:+: b) (h : w <+: (a ++ b).drop i) :
    i < a.length := by
  by_contra hle
  rw [List.drop_append, List.drop_of_length_le (by omega), List.nil_append] at h
  exact hw (h.isInfix.trans (List.drop_suffix _ b).isInfix)

/-- No occurrence starts in front of the first one. -/
theorem Unbordered.length_le_of_isPrefix_drop (hw : Unbordered w) (ha : ¬ w <:+: a)
    (h : w <+: (a ++ (w ++ b)).drop i) : a.length ≤ i := by
  by_contra hlt
  rw [List.drop_append_of_le_length (by omega)] at h
  have hne : a.drop i ≠ [] := by
    rw [Ne, List.drop_eq_nil_iff]
    omega
  exact ha ((hw.isPrefix_left hne h).isInfix.trans (List.drop_suffix i a).isInfix)

theorem contains_iff : contains w t = true ↔ w <:+: t := by
  rw [contains, Option.isSome_iff_ne_none, Ne, cutAt?_eq_none_iff, not_not]

theorem dropSuffix?_eq_some_iff : dropSuffix? w t = some a ↔ t = a ++ w := by
  by_cases h : w <:+ t
  · obtain ⟨s, rfl⟩ := h
    rw [dropSuffix?, if_pos (by simp), List.append_left_inj]
    simp
  · simp only [dropSuffix?, List.isSuffixOf_iff_suffix, h, if_false, reduceCtorEq, false_iff]
    rintro rfl
    exact h (List.suffix_append a w)

theorem dropSuffix?_singleton_eq_none_iff {c : Char} :
    dropSuffix? [c] t = none ↔ t.getLast? ≠ some c := by
  rw [Option.eq_none_iff_forall_ne_some]
  constructor
  · intro h hlast
    exact h _ (dropSuffix?_eq_some_iff.mpr (List.dropLast_append_getLast? c hlast).symm)
  · intro h a ha
    exact h (by rw [dropSuffix?_eq_some_iff.mp ha, List.getLast?_concat])

/-- What shares no character with `b` cannot reach into it. -/
theorem infix_of_infix_append_left (hw : ∀ c ∈ w, c ∉ b) (h : w <:+: a ++ b) : w <:+: a := by
  rcases List.infix_append_iff_ne_nil.mp h with h | h | ⟨u, v, -, hv, rfl, -, hvb⟩
  · exact h
  · cases w with
    | nil => exact List.nil_infix
    | cons c w => exact absurd (h.mem List.mem_cons_self) (hw c List.mem_cons_self)
  · obtain ⟨c, v, rfl⟩ := List.exists_cons_of_ne_nil hv
    exact absurd (hvb.mem List.mem_cons_self) (hw c (by simp))

theorem infix_of_infix_append_right (hw : ∀ c ∈ w, c ∉ a) (h : w <:+: a ++ b) : w <:+: b := by
  rcases List.infix_append_iff_ne_nil.mp h with h | h | ⟨u, v, hu, -, rfl, hua, -⟩
  · cases w with
    | nil => exact List.nil_infix
    | cons c w => exact absurd (h.mem List.mem_cons_self) (hw c List.mem_cons_self)
  · exact h
  · obtain ⟨c, u, rfl⟩ := List.exists_cons_of_ne_nil hu
    exact absurd (hua.mem List.mem_cons_self) (hw c (by simp))

/-- A front that reaches the first `c` goes on behind it. -/
theorem exists_append_cons_of_isPrefix (h : w <+: a ++ c :: b) (ha : c ∉ a)
    (hw : c ∈ w) : ∃ x, w = a ++ c :: x ∧ x <+: b := by
  obtain ⟨e, he⟩ := h
  rcases List.append_eq_append_iff.mp he with ⟨s, rfl, -⟩ | ⟨s, rfl, hs⟩
  · simp [hw] at ha
  · cases s with
    | nil => simp [ha] at hw
    | cons d x =>
      obtain ⟨rfl, rfl⟩ := List.cons.inj hs
      exact ⟨x, rfl, List.prefix_append x e⟩

end CallManual.Text
