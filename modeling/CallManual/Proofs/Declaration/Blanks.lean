import CallManual.Proofs.Declaration.Spacing

/-!
# Kinds of white space in parameter lists

Spaces of a parameter list may be exchanged for other white space. The words of the list stay what
they are, but a separator is a comma with a space behind it, so a list that loses the space of a
separator has fewer pieces. A line is read as the same declaration exactly when all separators of
its list are kept.
-/
namespace CallManual.Declaration
open Text

variable {head inner inner' rest list t u : Text} {ps : List Parameter} {d : Declaration}
  {c x : Char}

/-! ## Where the list of a line is -/

theorem getD_dropSuffix?_append (hx : x ≠ c) (a b : Text) :
    (dropSuffix? [c] (a ++ x :: b)).getD (a ++ x :: b) =
      a ++ x :: (dropSuffix? [c] b).getD b := by
  cases h : dropSuffix? [c] b with
  | some s =>
    have hs : a ++ x :: b = (a ++ x :: s) ++ [c] := by
      rw [dropSuffix?_eq_some_iff.mp h, List.append_assoc, List.cons_append]
    rw [dropSuffix?_eq_some_iff.mpr hs]
    rfl
  | none =>
    have hnone : dropSuffix? [c] (a ++ x :: b) = none := by
      rw [dropSuffix?_singleton_eq_none_iff] at h ⊢
      rw [List.getLast?_append_of_ne_nil _ (by simp)]
      by_cases hb : b = []
      · simpa [hb] using hx
      · rwa [List.getLast?_cons_of_ne_nil hb]
    rw [hnone]
    rfl

/-- What is behind the last parenthesis, without white space and one semicolon at its end. -/
def closing (rest : Text) : Text :=
  trimEnd ((dropSuffix? [';'] (trimEnd rest)).getD (trimEnd rest))

theorem closing_isPrefix (rest : Text) : closing rest <+: rest := by
  have htrim (t : Text) : trimEnd t <+: t := by
    obtain ⟨e, -, ht⟩ := exists_trimEnd t
    exact ⟨e, ht.symm⟩
  have hdrop : (dropSuffix? [';'] (trimEnd rest)).getD (trimEnd rest) <+: trimEnd rest := by
    cases h : dropSuffix? [';'] (trimEnd rest) with
    | none => exact List.prefix_rfl
    | some s => exact ⟨[';'], (dropSuffix?_eq_some_iff.mp h).symm⟩
  exact (htrim _).trans (hdrop.trans (htrim rest))

/-- The last parenthesis of a line ends the list if there is nothing else to close the line. -/
theorem parameterList?_append_close (hrest : ')' ∉ rest) :
    parameterList? (inner ++ ')' :: rest) = some list ↔ closing rest = [] ∧ trim inner = list := by
  have hparen : isBlank ')' = false := by decide
  have hclosing : ')' ∉ closing rest := fun hm => hrest ((closing_isPrefix rest).mem hm)
  have hlist : parameterList? (inner ++ ')' :: rest) =
      (dropSuffix? [')'] (inner ++ ')' :: closing rest)).map trim := by
    simp only [parameterList?, closing, trimEnd_append_cons hparen,
      getD_dropSuffix?_append (show ')' ≠ ';' by decide)]
  simp only [hlist, Option.map_eq_some_iff, dropSuffix?_eq_some_iff]
  constructor
  · rintro ⟨a, ha, rfl⟩
    have hnil : closing rest = [] := by
      by_contra hne
      have hlast := congrArg List.getLast? ha
      rw [List.getLast?_append_of_ne_nil _ (by simp), List.getLast?_cons_of_ne_nil hne,
        List.getLast?_concat] at hlast
      exact hclosing (List.mem_of_mem_getLast? hlast)
    rw [hnil, List.append_left_inj] at ha
    exact ⟨hnil, by rw [ha]⟩
  · rintro ⟨hnil, rfl⟩
    exact ⟨inner, by rw [hnil], rfl⟩

theorem parse_enclosed_iff (hhead : '(' ∉ head) (hrest : ')' ∉ rest) :
    parse (head ++ '(' :: (inner ++ ')' :: rest)) = .ok d ↔
      splitHead? head = some (d.returnType, d.name) ∧ closing rest = [] ∧ trim inner ≠ [] ∧
        parseParameters (trim inner) = .ok d.parameters := by
  have hopen : isBlank '(' = false := by decide
  have hcut : cutFirst? (· == '(') (trim (head ++ '(' :: (inner ++ ')' :: rest))) =
      some (trimStart head, trimEnd (inner ++ ')' :: rest)) := by
    rw [trim, trimStart_append (by simpa using hopen), trimEnd_append_cons hopen]
    refine cutFirst?_append (by simp) (fun x hx => ?_) _
    have hmem : x ∈ head := (List.dropWhile_suffix _).mem hx
    simpa using fun he : x = '(' => hhead (he ▸ hmem)
  have hsplit : splitHead? (trimStart head) = splitHead? head := by
    rw [splitHead?, splitHead?, trim, trimStart_eq_self (head?_trimStart head), ← trim]
  have hlist : parameterList? (trimEnd (inner ++ ')' :: rest)) =
      parameterList? (inner ++ ')' :: rest) := by
    simp only [parameterList?, trimEnd_eq_self (getLast?_trimEnd (inner ++ ')' :: rest))]
  rw [parse_eq_ok_iff]
  constructor
  · rintro ⟨h, tail, list, hcut', hh, hl, hne, hps⟩
    rw [hcut] at hcut'
    cases hcut'
    rw [hlist, parameterList?_append_close hrest] at hl
    obtain ⟨hclose, rfl⟩ := hl
    exact ⟨hsplit ▸ hh, hclose, hne, hps⟩
  · rintro ⟨hh, hclose, hne, hps⟩
    exact ⟨_, _, _, hcut, hsplit.trans hh,
      hlist.trans ((parameterList?_append_close hrest).mpr ⟨hclose, rfl⟩), hne, hps⟩

/-! ## White space in place of spaces -/

/-- The character itself, or white space where it is a space. -/
def Recast (c x : Char) : Prop := x = c ∨ (c = ' ' ∧ isBlank x = true)

instance (c x : Char) : Decidable (Recast c x) :=
  inferInstanceAs (Decidable (x = c ∨ (c = ' ' ∧ isBlank x = true)))

/-- The second text is the first with other white space in place of some of its spaces. -/
def Recasts : Text → Text → Prop := List.Forall₂ Recast

instance : DecidableRel Recasts := inferInstanceAs (DecidableRel (List.Forall₂ Recast))

theorem Recast.isBlank_eq (h : Recast c x) : isBlank x = isBlank c := by
  rcases h with rfl | ⟨rfl, hx⟩
  · rfl
  · rw [hx, isBlank_space]

theorem Recast.eq_of_not_isBlank (h : Recast c x) (hc : isBlank c = false) : x = c := by
  rcases h with rfl | ⟨rfl, -⟩
  · rfl
  · simp [isBlank_space] at hc

theorem Recasts.trimStart (h : Recasts t u) : Recasts (trimStart t) (trimStart u) := by
  induction h with
  | nil => exact .nil
  | @cons c x t u hx ht ih =>
    rw [Text.trimStart, Text.trimStart, List.dropWhile_cons, List.dropWhile_cons, hx.isBlank_eq]
    split
    · exact ih
    · exact .cons hx ht

theorem Recasts.trim (h : Recasts t u) : Recasts (trim t) (trim u) := by
  have hreverse : Recasts (Text.trimStart t).reverse (Text.trimStart u).reverse :=
    List.rel_reverse h.trimStart
  exact List.rel_reverse hreverse.trimStart

theorem Recasts.words_eq (h : Recasts t u) : words u = words t := by
  have hsplit : u.splitOnP isBlank = t.splitOnP isBlank := by
    induction h with
    | nil => rfl
    | @cons c x t u hx _ ih =>
      rw [List.splitOnP_cons_eq_if_modifyHead, List.splitOnP_cons_eq_if_modifyHead,
        hx.isBlank_eq, ih]
      split
      · rfl
      · next hc => rw [hx.eq_of_not_isBlank (by simpa using hc)]
  rw [words, words, hsplit]

/-- Where the first text has a separator, the second has the space of it. -/
def KeepsSeparators (t u : Text) : Prop :=
  ∀ front, front ++ separator <+: t → u[front.length + 1]? = some ' '

theorem keepsSeparators_cons_iff : KeepsSeparators (c :: t) (x :: u) ↔
    (separator <+: c :: t → u.head? = some ' ') ∧ KeepsSeparators t u := by
  constructor
  · intro h
    refine ⟨fun hs => ?_, fun front hf => ?_⟩
    · simpa [List.head?_eq_getElem?] using h [] hs
    · simpa using h (c :: front) (List.cons_prefix_cons.mpr ⟨rfl, hf⟩)
  · rintro ⟨hfirst, hrest⟩ front hf
    cases front with
    | nil => simpa [List.head?_eq_getElem?] using hfirst hf
    | cons y front => simpa using hrest front (List.cons_prefix_cons.mp hf).2

theorem Recast.eq_comma (h : Recast ',' x) : x = ',' := h.eq_of_not_isBlank (by decide)

theorem Recast.isBlank_of_space (h : Recast ' ' x) : isBlank x = true := by
  rw [h.isBlank_eq, isBlank_space]

/-- A separator of the second text is one of the first. -/
theorem Recasts.separator_prefix (h : Recasts t u) (hs : separator <+: u) : separator <+: t := by
  cases h with
  | nil => exact hs
  | @cons c x t u hx ht =>
    rw [separator_prefix_cons_iff] at hs ⊢
    obtain ⟨rfl, hspace⟩ := hs
    obtain rfl : c = ',' := by
      rcases hx with rfl | ⟨-, hblank⟩
      · rfl
      · exact absurd hblank (by decide)
    refine ⟨rfl, ?_⟩
    cases ht with
    | nil => cases hspace
    | @cons d y t u hy _ =>
      obtain rfl : y = ' ' := by simpa using hspace
      rcases hy with rfl | ⟨rfl, -⟩ <;> rfl

theorem length_splitParameters_cons (h : ¬ separator <+: c :: t) :
    (splitParameters (c :: t)).length = (splitParameters t).length := by
  rw [splitParameters_cons h, List.length_modifyHead]

/-- All separators are kept and the pieces stay apart, or some pieces are joined. -/
theorem Recasts.pieces (h : Recasts t u) :
    (KeepsSeparators t u ∧
      List.Forall₂ Recasts (splitParameters t) (splitParameters u)) ∨
    (¬ KeepsSeparators t u ∧ (splitParameters u).length < (splitParameters t).length) := by
  fun_induction splitParameters t generalizing u with
  | case1 =>
    cases h
    refine Or.inl ⟨fun front hf => ?_, .cons .nil .nil⟩
    simp [separator] at hf
  | case2 t ih =>
    obtain _ | @⟨_, x, _, u, hcomma, hrest⟩ := h
    obtain _ | @⟨_, y, _, u, hspace, hrest⟩ := hrest
    obtain rfl := hcomma.eq_comma
    by_cases hy : y = ' '
    · subst hy
      have hkeeps : KeepsSeparators (',' :: ' ' :: t) (',' :: ' ' :: u) ↔ KeepsSeparators t u := by
        simp [keepsSeparators_cons_iff, separator]
      rw [hkeeps]
      refine (ih hrest).imp (And.imp_right (.cons .nil)) (And.imp_right fun hlen => ?_)
      simpa [splitParameters] using hlen
    · have hjoined : (splitParameters (',' :: y :: u)).length =
          (splitParameters u).length := by
        have hsep : ¬ separator <+: ',' :: y :: u := by
          simpa [separator_prefix_cons_iff] using hy
        rw [length_splitParameters_cons hsep, length_splitParameters_cons
          (not_separator_prefix_of_isBlank hspace.isBlank_of_space u)]
      have hle : (splitParameters u).length ≤ (splitParameters t).length :=
        (ih hrest).elim (fun h => h.2.length_eq.ge) fun h => h.2.le
      refine Or.inr ⟨fun hk => hy ?_, ?_⟩
      · simpa using (keepsSeparators_cons_iff.mp hk).1 ⟨t, rfl⟩
      · rw [hjoined, List.length_cons]
        omega
  | case3 c t hc ih =>
    have hsep := not_separator_prefix_cons hc
    have hsep' := mt h.separator_prefix hsep
    obtain _ | @⟨_, x, _, u, hx, hrest⟩ := h
    have hkeeps : KeepsSeparators (c :: t) (x :: u) ↔ KeepsSeparators t u := by
      simp [keepsSeparators_cons_iff, hsep]
    rw [hkeeps, splitParameters_cons hsep', List.length_modifyHead, List.length_modifyHead]
    refine (ih hrest).imp_left (And.imp_right fun hpieces => ?_)
    generalize splitParameters t = raws, splitParameters u = raws' at hpieces ⊢
    cases hpieces with
    | nil => exact .nil
    | cons hfirst hothers => exact .cons (.cons hx hfirst) hothers

/-- A list that was read is read as the same parameters exactly when its separators are kept; with
one of them lost it has fewer pieces than there are parameters. -/
theorem Recasts.parseParameters_iff (h : Recasts t u) (ht : Tight t) (hu : Tight u)
    (hps : parseParameters t = .ok ps) : parseParameters u = .ok ps ↔ KeepsSeparators t u := by
  rcases h.pieces with ⟨hk, hpieces⟩ | ⟨hk, hlen⟩
  · have hwords : (splitParameters u).map words = (splitParameters t).map words := by
      rw [eq_comm, ← List.forall₂_eq_eq_eq, List.forall₂_map_left_iff, List.forall₂_map_right_iff]
      exact hpieces.imp fun _ _ hr => hr.words_eq.symm
    rw [parseParameters_congr hu ht hwords]
    exact iff_of_true hps hk
  · refine iff_of_false (fun hread => ?_) hk
    have hread := length_le_of_parseParameters hread
    rcases parseParameters_eq_ok_iff.mp hps with ⟨rfl, rfl⟩ | ⟨-, hall⟩
    · have hpos := List.length_pos_of_ne_nil (splitParameters_ne_nil u)
      have hone : (splitParameters noParameters).length = 1 := rfl
      omega
    · have hlength := hall.length_eq
      omega

/-- White space other than spaces in the list of a line that was read: the line is read as the same
declaration exactly when, in the list without the white space at its ends, every separator keeps its
space. -/
theorem parse_recasts_iff (hhead : '(' ∉ head) (hrest : ')' ∉ rest)
    (h : parse (head ++ '(' :: (inner ++ ')' :: rest)) = .ok d) (hr : Recasts inner inner') :
    parse (head ++ '(' :: (inner' ++ ')' :: rest)) = .ok d ↔
      KeepsSeparators (trim inner) (trim inner') := by
  rw [parse_enclosed_iff hhead hrest] at h ⊢
  obtain ⟨hsplit, hclose, hne, hps⟩ := h
  have hne' : trim inner' ≠ [] := fun hnil => hne (by
    simpa [hnil] using hr.trim.length_eq)
  rw [← hr.trim.parseParameters_iff (tight_trim inner) (tight_trim inner') hps]
  simp [hsplit, hclose, hne']

/-- Other white space between words, around a star and at the end of the list keeps the separator; a
tab behind the comma does not. -/
theorem parse_recasts_of_tabs :
    let head : Text := "int f"
    let inner : Text := "int a, struct s * p "
    let spread : Text := "int\ta, struct\u00a0s\u2003*\tp\t"
    let joined : Text := "int a,\tstruct s * p "
    let d : Declaration := ⟨"int", "f", [.object { baseType := "int", name := "a" },
      .object { baseType := "s", name := "p", qualifiers := { struct := true }, pointer := true }]⟩
    (parse (head ++ '(' :: (inner ++ ')' :: [';'])) = .ok d ∧
      Recasts inner spread ∧ Recasts inner joined) ∧
    KeepsSeparators (trim inner) (trim spread) ∧
      parse (head ++ '(' :: (joined ++ ')' :: [';'])) ≠ .ok d := by
  intro head inner spread joined d
  have hread : parse (head ++ '(' :: (inner ++ ')' :: [';'])) = .ok d := rfl
  have hspread : Recasts inner spread := by decide
  have hjoined : Recasts inner joined := by decide
  refine ⟨⟨hread, hspread, hjoined⟩, ?_, fun h => ?_⟩
  · exact (parse_recasts_iff (by decide) (by decide) hread hspread).mp rfl
  · have hkeeps := (parse_recasts_iff (by decide) (by decide) hread hjoined).mp h
    exact absurd (hkeeps "int a".toList ⟨"struct s * p".toList, by decide⟩) (by decide)

/-- A tab in place of the space behind a comma takes the separator away. -/
theorem not_forall_parse_of_recasts :
    ¬ ∀ (head inner inner' rest : Text) (d : Declaration), '(' ∉ head → ')' ∉ rest →
      Recasts inner inner' → parse (head ++ '(' :: (inner ++ ')' :: rest)) = .ok d →
        parse (head ++ '(' :: (inner' ++ ')' :: rest)) = .ok d := by
  intro h
  have hread := h "int f" "int a, int b" "int a,\tint b" ";"
    ⟨"int", "f", [.object { baseType := "int", name := "a" },
      .object { baseType := "int", name := "b" }]⟩ (by decide) (by decide) (by decide) rfl
  cases hread

end CallManual.Declaration
