import CallManual.Declaration.Parser
import CallManual.Proofs.Text.Words

/-!
# Respaced parameters

Respacing works on words: it glues each word that ends in a star to the word after it and puts
single spaces between what is left. So a respaced text is spaced, and respacing it again changes
nothing. Respacing moves no character that is not white space.
-/
namespace CallManual.Declaration
open Text

variable {t w raw : Text} {ws : List Text}

theorem head?_glueStars (t : Text) : (glueStars t).head? = t.head? := by
  fun_cases glueStars t <;> rfl

theorem glueStars_word (hw : ∀ c ∈ w, isBlank c = false) : glueStars w = w := by
  induction w with
  | nil => rfl
  | cons c w ih =>
    rw [glueStars, ih fun d hd => hw d (List.mem_cons_of_mem _ hd)]
    rintro t - rfl
    have := hw ' ' (by simp)
    simp [isBlank_space] at this

theorem glueStars_append_space (hw : ∀ c ∈ w, isBlank c = false) (t : Text) :
    glueStars (w ++ ' ' :: t) =
      if w.getLast? = some '*' then w ++ glueStars t else w ++ ' ' :: glueStars t := by
  induction w with
  | nil => rfl
  | cons c w ih =>
    have ih := ih fun d hd => hw d (List.mem_cons_of_mem _ hd)
    cases w with
    | nil =>
      by_cases hc : c = '*'
      · subst hc
        rfl
      · rw [List.singleton_append, glueStars]
        · simp [hc, show glueStars (' ' :: t) = ' ' :: glueStars t from rfl]
        · simp [hc]
    | cons d w =>
      rw [List.cons_append, glueStars, ih, List.getLast?_cons_cons]
      · split <;> rfl
      · intro s _ h
        have := hw d (by simp)
        simp [(List.cons.inj h).1, isBlank_space] at this

def glueWords : List Text → List Text
  | [] => []
  | w :: ws =>
    match glueWords ws with
    | [] => [w]
    | v :: vs => if w.getLast? = some '*' then (w ++ v) :: vs else w :: v :: vs

theorem glueWords_eq_nil_iff : glueWords ws = [] ↔ ws = [] := by
  cases ws with
  | nil => simp [glueWords]
  | cons w ws =>
    rw [glueWords]
    split
    · simp
    · split <;> simp

theorem isWord_of_mem_glueWords (h : ∀ w ∈ ws, IsWord w) : ∀ w ∈ glueWords ws, IsWord w := by
  induction ws with
  | nil => simp [glueWords]
  | cons w ws ih =>
    have hw := h w List.mem_cons_self
    have ih := ih fun v hv => h v (List.mem_cons_of_mem _ hv)
    rw [glueWords]
    split
    · simpa using hw
    · next v vs hg =>
      rw [hg] at ih
      have hv := ih v List.mem_cons_self
      split
      · intro u hu
        rcases List.mem_cons.mp hu with rfl | hu
        · refine ⟨by simp [hw.1], fun c hc => ?_⟩
          rcases List.mem_append.mp hc with hc | hc
          · exact hw.2 c hc
          · exact hv.2 c hc
        · exact ih u (List.mem_cons_of_mem _ hu)
      · intro u hu
        rcases List.mem_cons.mp hu with rfl | hu
        · exact hw
        · exact ih u hu

theorem glueStars_unwords (h : ∀ w ∈ ws, IsWord w) :
    glueStars (unwords ws) = unwords (glueWords ws) := by
  induction ws with
  | nil => rfl
  | cons w ws ih =>
    have hw := h w List.mem_cons_self
    have ih := ih fun v hv => h v (List.mem_cons_of_mem _ hv)
    by_cases hs : ws = []
    · subst hs
      simpa [glueWords] using glueStars_word hw.2
    · rw [unwords_cons_of_ne_nil w hs, glueStars_append_space hw.2, ih, glueWords]
      cases hg : glueWords ws with
      | nil => exact absurd (glueWords_eq_nil_iff.mp hg) hs
      | cons v vs =>
        simp only
        split
        · cases vs with
          | nil => simp
          | cons u us => rw [unwords_cons_cons, unwords_cons_cons, List.append_assoc]
        · rw [unwords_cons_cons]

/-- No word but the last ends in a star. -/
def Glued (ws : List Text) : Prop := ∀ w ∈ ws.dropLast, w.getLast? ≠ some '*'

theorem glueWords_eq_self (h : Glued ws) : glueWords ws = ws := by
  induction ws with
  | nil => rfl
  | cons w ws ih =>
    cases ws with
    | nil => rfl
    | cons v vs =>
      rw [Glued, List.dropLast_cons_cons] at h
      rw [glueWords, ih fun u hu => h u (List.mem_cons_of_mem _ hu)]
      exact if_neg (h w List.mem_cons_self)

theorem glued_glueWords (h : ∀ w ∈ ws, IsWord w) : Glued (glueWords ws) := by
  induction ws with
  | nil => simp [Glued, glueWords]
  | cons w ws ih =>
    have ih := ih fun v hv => h v (List.mem_cons_of_mem _ hv)
    have hwords := isWord_of_mem_glueWords fun v hv => h v (List.mem_cons_of_mem _ hv)
    rw [glueWords]
    split
    · simp [Glued]
    · next v vs hg =>
      rw [hg] at ih hwords
      split
      · cases vs with
        | nil => simp [Glued]
        | cons u us =>
          rw [Glued, List.dropLast_cons_cons] at ih ⊢
          intro x hx
          rcases List.mem_cons.mp hx with rfl | hx
          · rw [List.getLast?_append_of_ne_nil _ (hwords v List.mem_cons_self).1]
            exact ih v List.mem_cons_self
          · exact ih x (List.mem_cons_of_mem _ hx)
      · next hstar =>
        rw [Glued, List.dropLast_cons_cons]
        intro x hx
        rcases List.mem_cons.mp hx with rfl | hx
        · exact hstar
        · exact ih x hx

theorem respace_eq (raw : Text) : respace raw = unwords (glueWords (words raw)) :=
  glueStars_unwords fun _ => isWord_of_mem_words

theorem words_respace (raw : Text) : words (respace raw) = glueWords (words raw) := by
  rw [respace_eq, words_unwords (isWord_of_mem_glueWords fun _ => isWord_of_mem_words)]

theorem spaced_respace (raw : Text) : Spaced (respace raw) := by
  rw [respace_eq]
  exact spaced_unwords (isWord_of_mem_glueWords fun _ => isWord_of_mem_words)

theorem respace_respace (raw : Text) : respace (respace raw) = respace raw := by
  rw [respace_eq (respace raw), words_respace,
    glueWords_eq_self (glued_glueWords fun _ => isWord_of_mem_words), ← respace_eq]

section Characters
variable {p : Char → Bool} (hp : ∀ c, isBlank c = true → p c = false)
include hp

theorem filter_glueStars (t : Text) : (glueStars t).filter p = t.filter p := by
  fun_induction glueStars t with
  | case1 => rfl
  | case2 t ih => simp [List.filter_cons, hp ' ' isBlank_space, ih]
  | case3 c t _ ih => simp [List.filter_cons, ih]

theorem filter_unwords_words (t : Text) : (unwords (words t)).filter p = t.filter p := by
  induction t using words_induction with
  | nil => simp
  | blank c t hc ih => rw [words_cons_blank t hc, ih, List.filter_cons, if_neg (by simp [hp c hc])]
  | last w hw => simp [words_word hw]
  | word w c t hw hc ih =>
    rw [words_append_blank w t hc, words_word hw, List.filter_append, List.filter_cons,
      if_neg (by simp [hp c hc]), ← ih]
    by_cases hs : words t = []
    · simp [hs]
    · rw [List.singleton_append, unwords_cons_of_ne_nil w hs, List.filter_append, List.filter_cons,
        if_neg (by simp [hp ' ' isBlank_space])]

/-- Respacing keeps what is not white space, in its order. -/
theorem filter_respace (raw : Text) : (respace raw).filter p = raw.filter p := by
  rw [respace, filter_glueStars hp, filter_unwords_words hp]

end Characters

end CallManual.Declaration
