import CallManual.Proofs.Text.Trim
import Mathlib.Data.List.Chain

/-!
# Words and single spaces

The words of a text split at every blank, and joining words by single spaces is undone by reading
the words again. A spaced text is tight and has no two blanks side by side; a cut at one of its
blanks leaves two spaced texts.
-/
namespace CallManual.Text

variable {a b t w : Text} {ws : List Text} {c : Char}

def IsWord (w : Text) : Prop := w ≠ [] ∧ ∀ c ∈ w, isBlank c = false

@[simp] theorem words_nil : words [] = [] := by simp [words]

/-- Everything about words follows from this equation. -/
theorem words_append_blank (a b : Text) (hc : isBlank c = true) :
    words (a ++ c :: b) = words a ++ words b := by
  unfold words
  rw [List.splitOnP_append_cons a b hc, List.filter_append]

theorem words_cons_blank (t : Text) (hc : isBlank c = true) : words (c :: t) = words t := by
  simpa using words_append_blank [] t hc

theorem words_word (h : IsWord w) : words w = [w] := by
  rw [words, List.splitOnP_eq_singleton h.2]
  simp [h.1]

/-- A text is empty, starts with a blank, is a word, or starts with a word and a blank. -/
theorem words_induction {P : Text → Prop} (nil : P [])
    (blank : ∀ c t, isBlank c = true → P t → P (c :: t)) (last : ∀ w, IsWord w → P w)
    (word : ∀ w c t, IsWord w → isBlank c = true → P t → P (w ++ c :: t)) (t : Text) : P t := by
  induction hn : t.length using Nat.strong_induction_on generalizing t with
  | h n ih =>
    subst hn
    cases t with
    | nil => exact nil
    | cons c t =>
      by_cases hc : isBlank c = true
      · exact blank c t hc (ih _ (by simp) t rfl)
      · have hw : IsWord ((c :: t).takeWhile fun d => !isBlank d) := by
          refine ⟨by simp [hc], fun d hd => ?_⟩
          simpa using List.mem_takeWhile_imp hd
        have hsplit := List.takeWhile_append_dropWhile (p := fun d => !isBlank d) (l := c :: t)
        cases hr : (c :: t).dropWhile fun d => !isBlank d with
        | nil =>
          rw [hr, List.append_nil] at hsplit
          exact hsplit ▸ last _ hw
        | cons d r =>
          have hd := List.head?_dropWhile_not (fun d => !isBlank d) (c :: t)
          rw [hr] at hd hsplit
          have hlen := congrArg List.length hsplit
          rw [← hsplit]
          refine word _ d r hw (by simpa using hd) (ih _ ?_ r rfl)
          simp only [List.length_append, List.length_cons] at hlen ⊢
          omega

theorem isWord_of_mem_words (h : w ∈ words t) : IsWord w := by
  induction t using words_induction with
  | nil => simp at h
  | blank c t hc ih => exact ih (words_cons_blank t hc ▸ h)
  | last v hv =>
    rw [words_word hv, List.mem_singleton] at h
    exact h ▸ hv
  | word v c t hv hc ih =>
    rw [words_append_blank v t hc, words_word hv, List.singleton_append, List.mem_cons] at h
    rcases h with rfl | h
    · exact hv
    · exact ih h

theorem words_eq_nil_iff : words t = [] ↔ AllBlank t := by
  induction t using words_induction with
  | nil => simp [AllBlank]
  | blank c t hc ih => simp [words_cons_blank t hc, ih, AllBlank, hc]
  | last w hw =>
    obtain ⟨c, s, rfl⟩ := List.exists_cons_of_ne_nil hw.1
    simp [words_word hw, AllBlank, hw.2 c]
  | word w c t hw hc ih =>
    obtain ⟨d, s, rfl⟩ := List.exists_cons_of_ne_nil hw.1
    rw [words_append_blank _ t hc, words_word hw]
    simp [AllBlank, hw.2 d]

/-- A tight text with one word is this word. -/
theorem eq_of_words_eq_singleton (ht : Tight t) (h : words t = [w]) : t = w := by
  induction t using words_induction with
  | nil => simp at h
  | blank c t hc _ => simp [ht.1 c rfl] at hc
  | last v hv =>
    rw [words_word hv] at h
    exact List.singleton_injective h
  | word v c t hv hc _ =>
    rw [words_append_blank v t hc, words_word hv, List.singleton_append, List.cons.injEq,
      words_eq_nil_iff] at h
    have hblank : AllBlank (c :: t) := List.forall_mem_cons.mpr ⟨hc, h.2⟩
    have hne : c :: t ≠ [] := by simp
    have hend := ht.2
    rw [List.getLast?_append_of_ne_nil _ hne, List.getLast?_eq_some_getLast hne] at hend
    have hlast := hblank _ (List.getLast_mem hne)
    rw [hend _ rfl] at hlast
    cases hlast

@[simp] theorem unwords_nil : unwords [] = [] := rfl

@[simp] theorem unwords_singleton (w : Text) : unwords [w] = w := List.intercalate_singleton

theorem unwords_cons_cons (v w : Text) (ws : List Text) :
    unwords (v :: w :: ws) = v ++ ' ' :: unwords (w :: ws) := by
  simp [unwords, List.intercalate_cons_cons]

theorem unwords_cons_of_ne_nil (w : Text) (h : ws ≠ []) :
    unwords (w :: ws) = w ++ ' ' :: unwords ws := by
  obtain ⟨v, vs, rfl⟩ := List.exists_cons_of_ne_nil h
  exact unwords_cons_cons w v vs

theorem isPrefix_unwords (w : Text) (ws : List Text) : w <+: unwords (w :: ws) := by
  cases ws with
  | nil => simp
  | cons v ws => exact unwords_cons_cons w v ws ▸ List.prefix_append w _

theorem isInfix_unwords_of_mem (h : w ∈ ws) : w <:+: unwords ws := by
  induction ws with
  | nil => cases h
  | cons v ws ih =>
    rcases List.mem_cons.mp h with rfl | h
    · exact (isPrefix_unwords w ws).isInfix
    · cases ws with
      | nil => cases h
      | cons u ws =>
        rw [unwords_cons_cons]
        exact List.infix_append_of_infix_right (List.infix_cons (ih h))

theorem unwords_append_cons (a b : Text) (ws : List Text) :
    unwords ((a ++ b) :: ws) = a ++ unwords (b :: ws) := by
  cases ws with
  | nil => simp
  | cons w ws => simp [unwords_cons_cons]

/-- A space in front of the second word joins the words as well. -/
theorem unwords_append_space (v w : Text) (ws : List Text) :
    unwords ((v ++ ' ' :: w) :: ws) = unwords (v :: w :: ws) := by
  cases ws with
  | nil => simp [unwords_cons_cons]
  | cons x ws => simp [unwords_cons_cons]

theorem isBlank_space : isBlank ' ' = true := by decide

theorem words_unwords (h : ∀ w ∈ ws, IsWord w) : words (unwords ws) = ws := by
  induction ws with
  | nil => simp
  | cons w ws ih =>
    have hw := h w List.mem_cons_self
    by_cases hs : ws = []
    · subst hs
      simp [words_word hw]
    · rw [unwords_cons_of_ne_nil w hs, words_append_blank _ _ isBlank_space, words_word hw,
        ih fun v hv => h v (List.mem_cons_of_mem _ hv), List.singleton_append]

structure Spaced (t : Text) : Prop where
  tight : Tight t
  chain : t.IsChain fun a b => isBlank a = true → isBlank b = false

theorem Spaced.nil : Spaced [] := ⟨by simp [Tight], .nil⟩

theorem IsWord.spaced (h : IsWord w) : Spaced w := by
  refine ⟨⟨fun c hc => h.2 c (List.mem_of_mem_head? hc),
    fun c hc => h.2 c (List.mem_of_mem_getLast? hc)⟩, ?_⟩
  exact List.Pairwise.isChain (List.pairwise_iff_forall_sublist.mpr fun hs _ =>
    h.2 _ (hs.subset (by simp)))

/-- Spaced texts with a blank between them are a spaced text. -/
theorem Spaced.append_blank (ha : Spaced a) (hb : Spaced b) (ha' : a ≠ []) (hb' : b ≠ []) :
    Spaced (a ++ c :: b) := by
  obtain ⟨x, a, rfl⟩ := List.exists_cons_of_ne_nil ha'
  obtain ⟨y, b, rfl⟩ := List.exists_cons_of_ne_nil hb'
  refine ⟨⟨by simpa using ha.tight.1, fun d hd => hb.tight.2 d ?_⟩, ?_⟩
  · rw [List.getLast?_append, List.getLast?_cons_cons] at hd
    simpa [List.getLast?_cons] using hd
  refine List.isChain_append.mpr ⟨ha.chain, ?_, ?_⟩
  · refine List.isChain_cons.mpr ⟨fun d hd _ => ?_, hb.chain⟩
    exact hb.tight.1 d hd
  · intro d hd e he hblank
    rw [ha.tight.2 d hd] at hblank
    cases hblank

theorem Spaced.append_nonblank (ha : Spaced a) (hne : a ≠ []) (hc : isBlank c = false) :
    Spaced (a ++ [c]) := by
  obtain ⟨x, a, rfl⟩ := List.exists_cons_of_ne_nil hne
  refine ⟨⟨by simpa using ha.tight.1, fun d hd => ?_⟩, ?_⟩
  · rw [List.getLast?_concat] at hd
    cases hd
    exact hc
  · refine List.isChain_append.mpr ⟨ha.chain, .singleton c, ?_⟩
    rintro d - e he -
    cases he
    exact hc

theorem Spaced.cons_nonblank (h : Spaced t) (hne : t ≠ []) (hc : isBlank c = false) :
    Spaced (c :: t) := by
  refine ⟨⟨by simpa using hc, fun d hd => h.tight.2 d ?_⟩, ?_⟩
  · rwa [List.getLast?_cons_of_ne_nil hne] at hd
  · refine List.isChain_cons.mpr ⟨fun d _ hblank => ?_, h.chain⟩
    rw [hc] at hblank
    cases hblank

theorem Spaced.of_append_blank (h : Spaced (a ++ c :: b)) (hc : isBlank c = true) :
    (a ≠ [] ∧ Spaced a) ∧ b ≠ [] ∧ Spaced b := by
  obtain ⟨hleft, hright, hjoin⟩ := List.isChain_append.mp h.chain
  obtain ⟨hnext, hright⟩ := List.isChain_cons.mp hright
  have ha : a ≠ [] := by
    rintro rfl
    simp [h.tight.1 c rfl] at hc
  have hb : b ≠ [] := by
    rintro rfl
    simp [h.tight.2 c (by simp)] at hc
  refine ⟨⟨ha, ⟨?_, ?_⟩, hleft⟩, hb, ⟨fun d hd => hnext d hd hc, ?_⟩, hright⟩
  · intro d hd
    exact h.tight.1 d (by rw [List.head?_append_of_ne_nil _ ha]; exact hd)
  · intro d hd
    by_contra hblank
    simp [hjoin d hd c rfl (by simpa using hblank)] at hc
  · intro d hd
    apply h.tight.2 d
    rw [List.getLast?_append, List.getLast?_cons]
    simp [Option.mem_def.mp hd]

theorem Spaced.of_unwords (h : Spaced (unwords ws)) (hne : unwords ws ≠ []) :
    ∀ w ∈ ws, w ≠ [] ∧ Spaced w := by
  induction ws with
  | nil => simp
  | cons v ws ih =>
    cases ws with
    | nil =>
      rw [unwords_singleton] at h hne
      simpa using ⟨hne, h⟩
    | cons w ws =>
      rw [unwords_cons_cons] at h
      obtain ⟨hv, hws, hspaced⟩ := h.of_append_blank isBlank_space
      exact List.forall_mem_cons.mpr ⟨hv, ih hspaced hws⟩

theorem eq_space_of_mem_unwords (h : ∀ w ∈ ws, IsWord w) :
    ∀ c ∈ unwords ws, isBlank c = true → c = ' ' := by
  induction ws with
  | nil => simp
  | cons w ws ih =>
    have hw : ∀ c ∈ w, isBlank c = true → c = ' ' := fun c hc hblank => by
      simp [(h w List.mem_cons_self).2 c hc] at hblank
    by_cases hs : ws = []
    · simpa [hs] using hw
    · intro c hc hblank
      rw [unwords_cons_of_ne_nil w hs, List.mem_append, List.mem_cons] at hc
      rcases hc with hc | hc | hc
      · exact hw c hc hblank
      · exact hc
      · exact ih (fun v hv => h v (List.mem_cons_of_mem _ hv)) c hc hblank

theorem spaced_unwords (h : ∀ w ∈ ws, IsWord w) : Spaced (unwords ws) := by
  induction ws with
  | nil => exact Spaced.nil
  | cons w ws ih =>
    have hw := h w List.mem_cons_self
    cases ws with
    | nil => simpa using hw.spaced
    | cons v ws =>
      have hs := ih fun u hu => h u (List.mem_cons_of_mem _ hu)
      rw [unwords_cons_cons]
      apply hw.spaced.append_blank hs hw.1
      have hv := h v (by simp)
      intro he
      have := congrArg words he
      rw [words_unwords fun u hu => h u (List.mem_cons_of_mem _ hu)] at this
      simp at this

end CallManual.Text
