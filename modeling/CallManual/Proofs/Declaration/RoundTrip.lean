import CallManual.Proofs.Declaration.Reading

/-!
# The round trip of a declaration

Reading the written form of a declaration finds its return type, its name and its parameter list
again. The list splits into the written parameters exactly when none of them holds a separator,
and a separator can only come into a parameter with a line whose white space is not all spaces.
-/
namespace CallManual.Declaration
open Text

variable {source list raw t : Text} {ws : List Text} {p : Parameter} {ps : List Parameter}
  {d : Declaration}

theorem spaced_join (h : ∀ w ∈ ws, Spaced w ∧ w ≠ []) : Spaced (join separator ws) := by
  induction ws with
  | nil => exact Spaced.nil
  | cons w ws ih =>
    obtain ⟨hw, hne⟩ := h w List.mem_cons_self
    have ih := ih fun v hv => h v (List.mem_cons_of_mem _ hv)
    by_cases hs : ws = []
    · subst hs
      simpa using hw
    · have hjoin : join separator (w :: ws) = (w ++ [',']) ++ ' ' :: join separator ws := by
        rw [join_cons_of_ne_nil w hs, List.append_assoc, List.singleton_append]
      rw [hjoin]
      apply (hw.append_nonblank hne (by decide)).append_blank ih (by simp)
      obtain ⟨v, vs, rfl⟩ := List.exists_cons_of_ne_nil hs
      have hv := (h v (by simp)).2
      by_cases hvs : vs = []
      · simpa [hvs] using hv
      · simp [join_cons_of_ne_nil v hvs, hv]

theorem renderParameters_eq_join (h : ps ≠ []) :
    renderParameters ps = join separator (ps.map Parameter.render) := by
  cases ps with
  | nil => exact absurd rfl h
  | cons p ps => rfl

theorem spaced_renderParameters (h : ∀ p ∈ ps, ReadsBack p) : Spaced (renderParameters ps) := by
  by_cases hs : ps = []
  · subst hs
    exact IsWord.spaced ⟨by decide, by decide⟩
  · rw [renderParameters_eq_join hs]
    apply spaced_join
    intro w hw
    obtain ⟨p, hp, rfl⟩ := List.mem_map.mp hw
    exact ⟨(h p hp).spaced, (h p hp).ne_nil⟩

theorem renderParameters_ne_nil (h : ∀ p ∈ ps, ReadsBack p) : renderParameters ps ≠ [] := by
  cases ps with
  | nil => simp [renderParameters, noParameters]
  | cons p ps =>
    have hp := (h p List.mem_cons_self).ne_nil
    rw [renderParameters_eq_join (by simp), List.map_cons]
    by_cases hs : ps = []
    · simpa [hs] using hp
    · simp [join_cons_of_ne_nil _ (show ps.map Parameter.render ≠ [] by simpa using hs), hp]

theorem render_append_semicolon (d : Declaration) : d.render ++ [';'] =
    (d.returnType ++ ' ' :: d.name) ++ '(' :: (renderParameters d.parameters ++ [')', ';']) := by
  simp [render]

theorem Regular.tight_render_semicolon (h : Regular d) : Tight (d.render ++ [';']) := by
  obtain ⟨c, t, ht⟩ := List.exists_cons_of_ne_nil h.type_ne_nil
  have hc := h.type_tight.1 c (by simp [ht])
  have hsemi : isBlank ';' = false := by decide
  refine ⟨?_, by simp [hsemi]⟩
  simpa [render, ht] using hc

/-- All that is left of reading a written declaration is to read its parameters. -/
theorem Regular.parse_render (h : Regular d) :
    parse (d.render ++ [';']) =
      (parseParameters (renderParameters d.parameters)).map
        fun ps => { d with parameters := ps } := by
  have hcut : cutFirst? (· == '(') (trim (d.render ++ [';'])) = some (d.returnType ++ ' ' :: d.name,
      renderParameters d.parameters ++ [')', ';']) := by
    rw [trim_eq_self h.tight_render_semicolon]
    refine cutFirst?_eq_some_iff.mpr ⟨'(', by simp, ?_, render_append_semicolon d⟩
    intro c hc
    have hne : c ≠ '(' := by
      rintro rfl
      rcases List.mem_append.mp hc with hc | hc
      · exact h.type_open hc
      · exact h.name_open (by simpa using hc)
    simpa using hne
  rw [parse, hcut]
  simp only [splitHead?_eq_of_word h.type_tight h.type_ne_nil h.name_word h.name_star]
  rw [parameterList?_closed, trim_eq_self (spaced_renderParameters h.parameters).tight]
  split
  · next heq => cases heq
  · next heq => exact absurd (Option.some.inj heq) (renderParameters_ne_nil h.parameters)
  · next heq => rw [Option.some.inj heq]

theorem splitParameters_renderParameters (hs : ps ≠ [])
    (hsep : ∀ p ∈ ps, ¬ separator <:+: p.render) :
    splitParameters (renderParameters ps) = ps.map Parameter.render := by
  rw [renderParameters_eq_join hs, splitParameters_join_eq (by simpa using hs)]
  simpa using hsep

theorem parseParameters_renderParameters (h : ∀ p ∈ ps, ReadsBack p)
    (hsep : ∀ p ∈ ps, ¬ separator <:+: p.render) :
    parseParameters (renderParameters ps) = .ok ps := by
  by_cases hs : ps = []
  · subst hs
    rfl
  · have hsplit := splitParameters_renderParameters hs hsep
    refine parseParameters_eq_ok_iff.mpr (Or.inr ⟨?_, ?_⟩)
    · intro hvoid
      rw [hvoid] at hsplit
      change [noParameters] = _ at hsplit
      obtain ⟨p, hp, hrender⟩ := List.mem_map.mp (hsplit ▸ List.mem_cons_self)
      have hparse := (h p hp).parses
      rw [hrender] at hparse
      cases hparse
    · rw [hsplit, List.forall₂_map_left_iff, List.forall₂_same]
      exact fun p hp => (h p hp).parseParameter_render

theorem Regular.parse_render_eq_ok (h : Regular d)
    (hsep : ∀ p ∈ d.parameters, ¬ separator <:+: p.render) :
    parse (d.render ++ [';']) = .ok d := by
  rw [h.parse_render, parseParameters_renderParameters h.parameters hsep]
  rfl

/-! ## Where separators come from -/

theorem separator_infix_of_glueStars (h : separator <:+: glueStars t) : separator <:+: t := by
  fun_induction glueStars t with
  | case1 => exact h
  | case2 t ih =>
    rw [List.infix_cons_iff, separator_prefix_cons_iff] at h
    rcases h with ⟨hc, -⟩ | h
    · simp at hc
    · exact List.infix_cons (List.infix_cons (ih h))
  | case3 c t _ ih =>
    rw [List.infix_cons_iff, separator_prefix_cons_iff, head?_glueStars] at h
    rw [List.infix_cons_iff, separator_prefix_cons_iff]
    exact h.imp_right ih

/-- With no white space but spaces, words that stand apart by a space already did so before. -/
theorem separator_infix_of_unwords (ht : ∀ c ∈ t, isBlank c = true → c = ' ')
    (h : separator <:+: unwords (words t)) : separator <:+: t := by
  induction t using words_induction with
  | nil => exact h
  | blank c t hc ih =>
    rw [words_cons_blank t hc] at h
    exact List.infix_cons (ih (fun d hd => ht d (List.mem_cons_of_mem _ hd)) h)
  | last w hw => simpa [words_word hw] using h
  | word w c t hw hc ih =>
    rw [ht c (by simp) hc]
    rw [words_append_blank w t hc, words_word hw, List.singleton_append] at h
    rw [separator_infix_append_iff]
    by_cases hs : words t = []
    · rw [hs, unwords_singleton] at h
      exact Or.inl h
    · rw [unwords_cons_of_ne_nil w hs, separator_infix_append_iff, List.infix_cons_iff,
        separator_prefix_cons_iff] at h
      rcases h with h | (⟨hc, -⟩ | h) | h
      · exact Or.inl h
      · simp at hc
      · exact Or.inr (Or.inl (List.infix_cons
          (ih (fun d hd => ht d (List.mem_append_right _ (List.mem_cons_of_mem _ hd))) h)))
      · exact Or.inr (Or.inr h)

theorem not_separator_infix_respace (hraw : ∀ c ∈ raw, isBlank c = true → c = ' ')
    (h : ¬ separator <:+: raw) : ¬ separator <:+: respace raw := fun hs =>
  h (separator_infix_of_unwords hraw (separator_infix_of_glueStars hs))

/-- Spaces bring no separator into a parameter. -/
theorem not_separator_infix_of_parseParameters (hlist : ∀ c ∈ list, isBlank c = true → c = ' ')
    (h : parseParameters list = .ok ps) : ∀ p ∈ ps, ¬ separator <:+: p.render := by
  rcases parseParameters_eq_ok_iff.mp h with ⟨-, rfl⟩ | ⟨-, h⟩
  · simp
  · intro p hp
    obtain ⟨raw, hraw, hparse⟩ := exists_of_forall₂ h hp
    rw [(parseParameter_eq_ok_iff.mp hparse).2]
    refine not_separator_infix_respace (fun c hc => hlist c ?_)
      (not_separator_infix_of_mem raw hraw)
    exact (infix_of_mem_splitParameters hraw).mem hc

theorem eq_space_of_mem_join (h : ∀ w ∈ ws, ∀ c ∈ w, isBlank c = true → c = ' ') :
    ∀ c ∈ join separator ws, isBlank c = true → c = ' ' := by
  induction ws with
  | nil => simp
  | cons w ws ih =>
    have hw := h w List.mem_cons_self
    by_cases hs : ws = []
    · simpa [hs] using hw
    · intro c hc hblank
      simp only [join_cons_of_ne_nil w hs, List.mem_append, List.mem_cons] at hc
      rcases hc with hc | rfl | hc | hc
      · exact hw c hc hblank
      · exact absurd hblank (by decide)
      · exact hc
      · exact ih (fun v hv => h v (List.mem_cons_of_mem _ hv)) c hc hblank

theorem eq_space_of_mem_renderParameters (h : ∀ p ∈ ps, ReadsBack p) :
    ∀ c ∈ renderParameters ps, isBlank c = true → c = ' ' := by
  by_cases hs : ps = []
  · subst hs
    decide
  · rw [renderParameters_eq_join hs]
    apply eq_space_of_mem_join
    intro w hw
    obtain ⟨p, hp, rfl⟩ := List.mem_map.mp hw
    rw [← (h p hp).respaced, respace_eq]
    exact eq_space_of_mem_unwords (isWord_of_mem_glueWords fun _ => isWord_of_mem_words)

/-- Writing a declaration that was read and reading it again gives it back exactly when none of its
parameters is written with a separator inside, and always when the line had no white space but
spaces. -/
theorem parse_render_eq_ok_iff (h : parse source = .ok d) :
    (parse (d.render ++ [';']) = .ok d ↔ ∀ p ∈ d.parameters, ¬ separator <:+: p.render) ∧
      ((∀ c ∈ source, isBlank c = true → c = ' ') → parse (d.render ++ [';']) = .ok d) := by
  have hd := regular_of_parse h
  refine ⟨⟨fun hback => ?_, hd.parse_render_eq_ok⟩, fun hspace => hd.parse_render_eq_ok ?_⟩
  · -- the written list has no white space but spaces, so what it is read as holds no separator
    rw [hd.parse_render] at hback
    cases hps : parseParameters (renderParameters d.parameters) with
    | error e => simp [hps, Except.map] at hback
    | ok ps =>
      simp only [hps, Except.map, Except.ok.injEq] at hback
      have heq : ps = d.parameters := congrArg Declaration.parameters hback
      exact not_separator_infix_of_parseParameters
        (eq_space_of_mem_renderParameters hd.parameters) (heq ▸ hps)
  · obtain ⟨list, hlist, hps⟩ := list_isInfix_of_parse h
    exact not_separator_infix_of_parseParameters (fun c hc => hspace c (hlist.mem hc)) hps

/-- A tab behind a comma keeps a callback in one piece, and the space it becomes takes it apart;
without white space there the callback returns. -/
theorem parse_render_of_tab :
    let p : Parameter := .object { baseType := "char", name := "p", pointer := true }
    let tabbed : Declaration := ⟨"int", "f", [.callback "void" "(*g)(int, int)", p]⟩
    let plain : Declaration := ⟨"int", "f", [.callback "void" "(*g)(int,int)", p]⟩
    (parse "int f(void (*g)(int,\tint), char * p);" = .ok tabbed ∧
      parse (tabbed.render ++ [';']) ≠ .ok tabbed) ∧
    parse "int  f(void (*g)(int,int), char * p) ;" = .ok plain ∧
      parse (plain.render ++ [';']) = .ok plain := by
  intro p tabbed plain
  have htab : parse "int f(void (*g)(int,\tint), char * p);" = .ok tabbed := rfl
  have hplain : parse "int  f(void (*g)(int,int), char * p) ;" = .ok plain := rfl
  refine ⟨⟨htab, fun hback => ?_⟩, hplain, (parse_render_eq_ok_iff hplain).2 (by decide)⟩
  have hsep := (parse_render_eq_ok_iff htab).1.mp hback _ List.mem_cons_self
  exact hsep ⟨"void (*g)(int".toList, "int)".toList, rfl⟩

end CallManual.Declaration
