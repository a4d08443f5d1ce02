import CallManual.Proofs.Declaration.Reading
import CallManual.Proofs.Text.Spaces

/-!
# Spacing of declarations

How many spaces stand in a run does not change what a line is read as. Each step of reading may be
taken on the squeezed line: its cuts are not inside runs, and pieces of a parameter list are read by
their words alone. What is left of the spacing is the return type, which is kept as it is written.
-/
namespace CallManual.Declaration
open Text

variable {t u raw raw' list list' : Text} {raws : List Text}

/-- The error without the line in which it was found. -/
def withoutLine : DeclarationError → DeclarationError
  | .missingOpenParen _ => .missingOpenParen []
  | .missingCloseParen _ => .missingCloseParen []
  | .missingName _ => .missingName []
  | .emptyParameterList _ => .emptyParameterList []
  | e => e

/-- What a line is read as, apart from its spacing: errors without the line itself, and single
spaces in the return type. -/
def outline : Except DeclarationError Declaration → Except DeclarationError Declaration
  | .ok d => .ok { d with returnType := squeeze d.returnType }
  | .error e => .error (withoutLine e)

theorem parseParameter_congr (h : words raw = words raw') :
    parseParameter raw = parseParameter raw' := by
  rw [parseParameter, parseParameter, respace, respace, h]

theorem splitParameters_eq_void_iff (hlist : Tight list) :
    splitParameters list = [noParameters] ↔
      (splitParameters list).map words = [[noParameters]] := by
  constructor
  · intro h
    rw [h]
    rfl
  · intro h
    obtain ⟨raw, hraw, hwords⟩ := List.map_eq_singleton_iff.mp h
    have heq : list = raw := by rw [← join_splitParameters list, hraw, join_singleton]
    rw [hraw, ← heq, eq_of_words_eq_singleton hlist (heq ▸ hwords)]

/-- A parameter list is read by the words of its pieces. -/
theorem parseParameters_congr (hlist : Tight list) (hlist' : Tight list')
    (h : (splitParameters list).map words = (splitParameters list').map words) :
    parseParameters list = parseParameters list' := by
  have hpieces : List.Forall₂ (fun raw raw' => parseParameter raw = parseParameter raw')
      (splitParameters list) (splitParameters list') := by
    rw [← List.forall₂_eq_eq_eq, List.forall₂_map_left_iff, List.forall₂_map_right_iff] at h
    exact h.imp fun _ _ => parseParameter_congr
  simp only [parseParameters, splitParameters_eq_void_iff hlist,
    splitParameters_eq_void_iff hlist', h, mapM_congr_of_forall₂ hpieces]

theorem splitHead?_squeeze (head : Text) :
    splitHead? (squeeze head) = (splitHead? head).map fun (r, n) => (squeeze r, n) := by
  rw [splitHead?, splitHead?, trim_squeeze]
  cases h : cutLast? isBlank (trim head) with
  | none =>
    have hnone : cutLast? isBlank (squeeze (trim head)) = none :=
      cutLast?_eq_none_iff.mpr fun x hx => cutLast?_eq_none_iff.mp h x (mem_squeeze.mp hx)
    rw [hnone]
    rfl
  | some sides =>
    obtain ⟨front, last⟩ := sides
    obtain ⟨front', hcut, hfront⟩ := cutLast?_squeeze h
    have hstars : ' ' ∉ last.takeWhile (· == '*') := fun hm => by
      simpa using List.mem_takeWhile_imp hm
    have htype : squeeze (trimEnd front ++ last.takeWhile (· == '*')) =
        trimEnd front' ++ last.takeWhile (· == '*') := by
      rw [hfront, squeeze_append, squeeze_eq_self hstars]
      exact fun hspace => hstars (List.mem_of_mem_head? hspace.2)
    simp only [hcut, ← htype, List.isEmpty_iff, Bool.or_eq_true, squeeze_eq_nil_iff]
    split <;> rfl

theorem parameterList?_squeeze (tail : Text) :
    parameterList? (squeeze tail) = (parameterList? tail).map squeeze := by
  have hsemicolon : (dropSuffix? [';'] (squeeze (trimEnd tail))).getD (squeeze (trimEnd tail)) =
      squeeze ((dropSuffix? [';'] (trimEnd tail)).getD (trimEnd tail)) := by
    rw [dropSuffix?_squeeze (by decide)]
    cases dropSuffix? [';'] (trimEnd tail) <;> rfl
  simp only [parameterList?, trimEnd_squeeze, hsemicolon,
    dropSuffix?_squeeze (show ')' ≠ ' ' by decide), Option.map_map]
  congr 1
  funext inner
  exact trim_squeeze inner

theorem map_words_splitParameters_blank {c : Char} (hc : isBlank c = true) (t : Text) :
    (splitParameters (c :: t)).map words = (splitParameters t).map words := by
  obtain ⟨raw, raws, h⟩ := List.exists_cons_of_ne_nil (splitParameters_ne_nil t)
  rw [splitParameters_cons (not_separator_prefix_of_isBlank hc t), h, List.modifyHead_cons,
    List.map_cons, List.map_cons, words_cons_blank raw hc]

theorem head?_splitParameters_iff (h : splitParameters t = raw :: raws) :
    raw.head? = some ' ' ↔ t.head? = some ' ' := by
  constructor
  · intro hspace
    obtain ⟨e, rfl⟩ := splitParameters_head_isPrefix h
    rw [List.head?_append, hspace, Option.some_or]
  · intro hspace
    obtain ⟨s, rfl⟩ := List.head?_eq_some_iff.mp hspace
    obtain ⟨v, vs, hv⟩ := List.exists_cons_of_ne_nil (splitParameters_ne_nil s)
    rw [splitParameters_cons (not_separator_prefix_of_isBlank isBlank_space s), hv,
      List.modifyHead_cons] at h
    rw [← (List.cons.inj h).1, List.head?_cons]

/-- The first piece is squeezed, and a piece behind a separator may lose a space at its front. -/
theorem splitParameters_squeeze (h : splitParameters t = raw :: raws) :
    ∃ raws', splitParameters (squeeze t) = squeeze raw :: raws' ∧
      raws'.map words = raws.map words := by
  fun_induction splitParameters t generalizing raw raws with
  | case1 =>
    obtain ⟨rfl, rfl⟩ := List.cons.inj h
    exact ⟨[], rfl, rfl⟩
  | case2 t ih =>
    obtain ⟨rfl, rfl⟩ := List.cons.inj h
    obtain ⟨v, vs, hv⟩ := List.exists_cons_of_ne_nil (splitParameters_ne_nil t)
    obtain ⟨vs', hsqueeze, hwords⟩ := ih hv
    have hpieces : (splitParameters (squeeze t)).map words = (splitParameters t).map words := by
      rw [hsqueeze, hv, List.map_cons, List.map_cons, words_squeeze, hwords]
    rw [squeeze_cons_of_ne (by decide)]
    by_cases hspace : t.head? = some ' '
    · obtain ⟨s, hs⟩ : ∃ s, squeeze t = ' ' :: s := by
        rw [← head?_squeeze, List.head?_eq_some_iff] at hspace
        exact hspace
      rw [squeeze_space_cons hspace, ← hpieces, hs, map_words_splitParameters_blank isBlank_space]
      exact ⟨_, rfl, rfl⟩
    · rw [squeeze_cons (by simp [hspace])]
      exact ⟨_, rfl, hpieces⟩
  | case3 c t hc ih =>
    obtain ⟨v, vs, hv⟩ := List.exists_cons_of_ne_nil (splitParameters_ne_nil t)
    obtain ⟨vs', hsqueeze, hwords⟩ := ih hv
    rw [hv, List.modifyHead_cons] at h
    obtain ⟨rfl, rfl⟩ := List.cons.inj h
    refine ⟨vs', ?_, hwords⟩
    by_cases hrun : c = ' ' ∧ t.head? = some ' '
    · obtain ⟨rfl, hspace⟩ := hrun
      rw [squeeze_space_cons hspace, hsqueeze,
        squeeze_space_cons ((head?_splitParameters_iff hv).mpr hspace)]
    · have hsep : ¬ separator <+: c :: squeeze t := by
        rw [separator_prefix_cons_iff, head?_squeeze, ← separator_prefix_cons_iff]
        exact not_separator_prefix_cons hc
      have hfirst : ¬ (c = ' ' ∧ v.head? = some ' ') := by rwa [head?_splitParameters_iff hv]
      rw [squeeze_cons hrun, splitParameters_cons hsep, hsqueeze, List.modifyHead_cons,
        squeeze_cons hfirst]

theorem words_splitParameters_squeeze (t : Text) :
    (splitParameters (squeeze t)).map words = (splitParameters t).map words := by
  obtain ⟨raw, ws, h⟩ := List.exists_cons_of_ne_nil (splitParameters_ne_nil t)
  obtain ⟨ws', hsqueeze, hwords⟩ := splitParameters_squeeze h
  rw [h, hsqueeze, List.map_cons, List.map_cons, words_squeeze, hwords]

theorem outline_parse_squeeze (source : Text) :
    outline (parse (squeeze source)) = outline (parse source) := by
  rw [parse, parse, trim_squeeze, cutFirst?_squeeze (by decide)]
  cases cutFirst? (· == '(') (trim source) with
  | none => rfl
  | some sides =>
    obtain ⟨head, tail⟩ := sides
    simp only [Option.map_some, splitHead?_squeeze, parameterList?_squeeze]
    cases splitHead? head with
    | none => rfl
    | some parts =>
      obtain ⟨returnType, name⟩ := parts
      cases hlist : parameterList? tail with
      | none => rfl
      | some list =>
        obtain ⟨inner, rest, -, hinner, -⟩ := parameterList?_eq_some hlist
        have htight : Tight list := hinner ▸ tight_trim inner
        have hread : parseParameters (squeeze list) = parseParameters list := by
          refine parseParameters_congr ?_ htight (words_splitParameters_squeeze list)
          rw [← trim_eq_self htight, ← trim_squeeze]
          exact tight_trim _
        cases list with
        | nil => rfl
        | cons c list =>
          obtain ⟨d, s, hs⟩ := List.exists_cons_of_ne_nil
            (mt squeeze_eq_nil_iff.mp (List.cons_ne_nil c list))
          rw [hs] at hread
          simp only [Option.map_some, hs, hread]
          cases parseParameters (c :: list) with
          | ok ps => simp only [Except.map, outline, squeeze_squeeze]
          | error e => rfl

/-- Lines that differ in the lengths of their runs of spaces, and in spaces at their ends, are read
alike: as declarations with one name and the same parameters, with return types that differ in
spacing only, or both not, for the same reason and the same parameter. -/
theorem outline_parse_of_respaces (h : Respaces t u) (a b a' b' : ℕ) :
    outline (parse (List.replicate a ' ' ++ (t ++ List.replicate b ' '))) =
      outline (parse (List.replicate a' ' ' ++ (u ++ List.replicate b' ' '))) := by
  have hends (a b : ℕ) (t : Text) :
      parse (List.replicate a ' ' ++ (t ++ List.replicate b ' ')) = parse t := by
    have hblank (n : ℕ) : AllBlank (List.replicate n ' ') := fun c hc => by
      rw [List.eq_of_mem_replicate hc, isBlank_space]
    rw [parse, trim_blank_append (hblank a), trim_append_blank t (hblank b), ← parse]
  rw [hends, hends, ← outline_parse_squeeze t, h.squeeze_eq, outline_parse_squeeze]

/-- Spaces in the return type, behind commas, around a lone star and in a declarator. -/
theorem outline_parse_of_wide_line :
    let wide : Text := "unsigned   long *f(struct s  *   p,   void (*g)(int  n))  ;"
    let narrow : Text := "unsigned long *f(struct s * p, void (*g)(int n)) ;"
    let d : Declaration := ⟨"unsigned long*", "f", [
      .object { baseType := "s", name := "p", qualifiers := { struct := true }, pointer := true },
      .callback "void" "(*g)(int n)"]⟩
    Respaces wide narrow ∧
      parse (List.replicate 0 ' ' ++ (narrow ++ List.replicate 0 ' ')) = .ok d ∧
      outline (parse (List.replicate 2 ' ' ++ (wide ++ List.replicate 1 ' '))) = .ok d := by
  intro wide narrow d
  have h : Respaces wide narrow := by decide
  have hread : parse (List.replicate 0 ' ' ++ (narrow ++ List.replicate 0 ' ')) = .ok d := rfl
  refine ⟨h, hread, ?_⟩
  rw [outline_parse_of_respaces h 2 1 0 0, hread]
  rfl

end CallManual.Declaration
