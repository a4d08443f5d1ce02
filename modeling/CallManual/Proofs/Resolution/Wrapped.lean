import CallManual.Proofs.Declaration.RoundTrip
import CallManual.Proofs.Page.Joining
import CallManual.Proofs.Resolution.Context

/-!
# Finding a wrapped declaration

A formatter breaks a long declaration at spaces of its parameter list and indents every line. When
no step in front of reading takes offence at its text, the declaration is found on such a page. The
lines after the first may start declarations of their own, but an end of the list has no more
pieces than the list, so none of them is richer.
-/
namespace CallManual.Resolution
open Text Page Declaration

variable {source before header after t l : Text} {rows : List (ℕ × Text)} {row : ℕ × Text}
  {d : Declaration} {limit : ℕ}

/-- A declaration whose written form the steps in front of reading leave alone. -/
structure Undisturbed (d : Declaration) : Prop where
  spaces : ∀ c ∈ d.render, isBlank c = true → c = ' '
  unstruck : backspace ∉ d.render
  unclosed : ';' ∉ d.render
  uncommented : ¬ commentOpen <:+: d.render
  unmarked : ¬ unimplementedMarker <:+: d.render
  untyped : ¬ typedefWord <+: d.render
  separate : ∀ p ∈ d.parameters, ¬ separator <:+: p.render
  named : ¬ UnderscoreRun d.name

/-- A line of a block, as an indentation and the text behind it. -/
def indent (row : ℕ × Text) : Text := List.replicate row.1 ' ' ++ row.2

/-- Indented lines that break a text at spaces, none in front of its first parenthesis. -/
structure Wraps (rows : List (ℕ × Text)) (t : Text) : Prop where
  pieces : unwords (rows.map Prod.snd) = t
  indented : ∀ row ∈ rows, 0 < row.1
  opened : ∀ row ∈ rows.head?, '(' ∈ row.2

theorem Undisturbed.isStatement (h : Undisturbed d) : IsStatement (d.render ++ [';']) := by
  refine ⟨by simp, by simpa using h.unclosed, fun hc => h.uncommented ?_⟩
  exact infix_of_infix_append_left (by decide) hc

/-- The head of a declaration has a return type and a name. -/
theorem startsDeclaration_of_regular (h : Regular d) (x : Text) :
    startsDeclaration ((d.returnType ++ ' ' :: d.name) ++ '(' :: x) = true := by
  have htype : words d.returnType ≠ [] := by
    rw [Ne, words_eq_nil_iff]
    obtain ⟨c, s, hs⟩ := List.exists_cons_of_ne_nil h.type_ne_nil
    intro hblank
    have hc := h.type_tight.1 c (by simp [hs])
    rw [hblank c (by simp [hs])] at hc
    cases hc
  have hname : words (d.name ++ '(' :: x) ≠ [] := by
    rw [Ne, words_eq_nil_iff]
    intro hblank
    exact absurd (hblank '(' (by simp)) (by decide)
  have htype := List.length_pos_of_ne_nil htype
  have hname := List.length_pos_of_ne_nil hname
  simp only [startsDeclaration, List.append_assoc, List.cons_append,
    words_append_blank _ _ isBlank_space, List.length_append, Bool.and_eq_true, decide_eq_true_eq]
  exact ⟨by omega, by simp⟩

theorem spaced_list (h : Regular d) :
    Spaced ('(' :: (renderParameters d.parameters ++ [')', ';'])) := by
  have hne := renderParameters_ne_nil h.parameters
  have hlist : Spaced (renderParameters d.parameters ++ [')'] ++ [';']) :=
    ((spaced_renderParameters h.parameters).append_nonblank hne (by decide)).append_nonblank
      (by simp) (by decide)
  rw [List.append_assoc] at hlist
  exact hlist.cons_nonblank (by simp) (by decide)

/-- The first line holds the head, and all lines are pieces of the list from there on. -/
theorem Wraps.exists_cons (h : Wraps rows (d.render ++ [';'])) (hd : Regular d) :
    ∃ k x rest, rows = (k, (d.returnType ++ ' ' :: d.name) ++ '(' :: x) :: rest ∧
      unwords (('(' :: x) :: rest.map Prod.snd) =
        '(' :: (renderParameters d.parameters ++ [')', ';']) := by
  cases rows with
  | nil =>
    have hp := h.pieces
    simp at hp
  | cons row rest =>
    obtain ⟨k, w⟩ := row
    have hp := h.pieces
    rw [List.map_cons, render_append_semicolon] at hp
    have hhead : '(' ∉ d.returnType ++ ' ' :: d.name := by
      simpa using ⟨hd.type_open, hd.name_open⟩
    obtain ⟨x, rfl, -⟩ := exists_append_cons_of_isPrefix (hp ▸ isPrefix_unwords w _) hhead
      (h.opened (k, w) rfl)
    refine ⟨k, x, rest, rfl, ?_⟩
    rwa [unwords_append_cons, List.append_cancel_left_eq] at hp

theorem Wraps.tight (h : Wraps rows (d.render ++ [';'])) (hd : Regular d) :
    ∀ row ∈ rows, row.2 ≠ [] ∧ Tight row.2 := by
  obtain ⟨k, x, rest, rfl, hlist⟩ := h.exists_cons hd
  have hspaced := (hlist ▸ spaced_list hd).of_unwords (by simp [hlist])
  rw [List.forall_mem_cons] at hspaced ⊢
  refine ⟨⟨by simp, ?_, ?_⟩, fun row hrow => ?_⟩
  · obtain ⟨c, s, hs⟩ := List.exists_cons_of_ne_nil hd.type_ne_nil
    simpa [hs] using hd.type_tight.1 c (by simp [hs])
  · intro c hc
    rw [List.getLast?_append_of_ne_nil _ (by simp)] at hc
    exact hspaced.1.2.tight.2 c hc
  · have hrow := hspaced.2 row.2 (List.mem_map_of_mem hrow)
    exact ⟨hrow.1, hrow.2.tight⟩

theorem trim_indent (h : Tight row.2) : trim (indent row) = row.2 := by
  rw [indent, trim_blank_append fun c hc => List.eq_of_mem_replicate hc ▸ isBlank_space,
    trim_eq_self h]

theorem trimEnd_indent (hne : row.2 ≠ []) (h : Tight row.2) : trimEnd (indent row) = indent row := by
  apply trimEnd_eq_self
  rw [indent, List.getLast?_append_of_ne_nil _ hne]
  exact h.2

theorem head?_indent (h : 0 < row.1) : (indent row).head? = some ' ' := by
  obtain ⟨k, w⟩ := row
  cases k with
  | zero => cases h
  | succ k => rfl

theorem Wraps.map_trim (h : Wraps rows (d.render ++ [';'])) (hd : Regular d) :
    (rows.map indent).map trim = rows.map Prod.snd := by
  rw [List.map_map]
  exact List.map_congr_left fun row hrow => trim_indent (h.tight hd row hrow).2

theorem Wraps.mem_line {c : Char} (h : Wraps rows (d.render ++ [';'])) (hl : l ∈ rows.map indent)
    (hc : c ∈ l) : c = ' ' ∨ c ∈ d.render ++ [';'] := by
  obtain ⟨row, hrow, rfl⟩ := List.mem_map.mp hl
  rcases List.mem_append.mp hc with hc | hc
  · exact Or.inl (List.eq_of_mem_replicate hc)
  · exact Or.inr ((h.pieces ▸ isInfix_unwords_of_mem (List.mem_map_of_mem hrow)).mem hc)

theorem Wraps.eq_space_of_isBlank {c : Char} (h : Wraps rows (d.render ++ [';']))
    (hu : Undisturbed d) (hl : l ∈ rows.map indent) (hc : c ∈ l) (hb : isBlank c = true) :
    c = ' ' := by
  rcases h.mem_line hl hc with hc | hc
  · exact hc
  · rcases List.mem_append.mp hc with hc | hc
    · exact hu.spaces c hc hb
    · rw [List.mem_singleton.mp hc] at hb
      exact absurd hb (by decide)

/-- The indented lines stand on the page as they are, and none of them ends the block. -/
theorem Wraps.lines (h : Wraps rows (d.render ++ [';'])) (hd : Regular d) (hu : Undisturbed d) :
    ∀ l ∈ rows.map indent, IsLine l ∧ backspace ∉ l ∧ trimEnd l ≠ descriptionHeader := by
  intro l hl
  have hstruck : backspace ∉ l := fun hm => by
    have hne : backspace ≠ ' ' ∧ backspace ≠ ';' := by decide
    simpa [hne, hu.unstruck] using h.mem_line hl hm
  have hbreak : '\n' ∉ l := fun hm =>
    absurd (h.eq_space_of_isBlank hu hl hm (by decide)) (by decide)
  have hreturn : l.getLast? ≠ some '\r' := fun hm =>
    absurd (h.eq_space_of_isBlank hu hl (List.mem_of_getLast? hm) (by decide)) (by decide)
  obtain ⟨row, hrow, rfl⟩ := List.mem_map.mp hl
  obtain ⟨hne, htight⟩ := h.tight hd row hrow
  have hhead := head?_indent (h.indented row hrow)
  refine ⟨⟨fun he => ?_, hbreak, hreturn⟩, hstruck, fun he => ?_⟩
  · rw [he] at hhead
    cases hhead
  · rw [trimEnd_indent hne htight] at he
    rw [he] at hhead
    exact absurd hhead (by decide)

theorem Wraps.marked_eq_false (h : Wraps rows (d.render ++ [';'])) (hu : Undisturbed d) :
    marked (rows.map indent) = false := by
  rw [marked, List.any_eq_false]
  intro l hl
  rw [contains_iff]
  obtain ⟨row, hrow, rfl⟩ := List.mem_map.mp hl
  intro hm
  have hpiece : unimplementedMarker <:+: row.2 := by
    refine infix_of_infix_append_right (fun c hc hs => ?_) hm
    rw [List.eq_of_mem_replicate hs] at hc
    exact absurd hc (by decide)
  have hwhole := hpiece.trans (isInfix_unwords_of_mem (List.mem_map_of_mem hrow))
  rw [h.pieces] at hwhole
  exact hu.unmarked (infix_of_infix_append_left (by decide) hwhole)

theorem isPrefix_of_append_semicolon (hs : ';' ∉ t) (h : t <+: d.render ++ [';']) :
    t <+: d.render := by
  rcases List.prefix_concat_iff.mp h with rfl | h
  · simp at hs
  · exact h

/-- What the lines behind the first give are ends of the list, read with no more parameters. -/
theorem arity_le_of_suffix {e : Declaration} {x : Text} {ps : List Text} (hu : Undisturbed d)
    (hps : ps ≠ []) (hlist : unwords (('(' :: x) :: ps) =
      '(' :: (renderParameters d.parameters ++ [')', ';']))
    (ht : t <:+ unwords ps) (he : parse t = .ok e) : e.arity ≤ d.arity := by
  rw [unwords_cons_of_ne_nil _ hps, List.cons_append, List.cons.injEq] at hlist
  have hend : t <:+: renderParameters d.parameters ++ [')', ';'] :=
    hlist.2 ▸ List.infix_append_of_infix_right (List.infix_cons ht.isInfix)
  have hne : d.parameters ≠ [] := by
    intro hnil
    have hspace : ' ' ∈ renderParameters d.parameters ++ [')', ';'] := hlist.2 ▸ by simp
    rw [hnil] at hspace
    exact absurd hspace (by decide)
  calc e.arity ≤ (splitParameters t).length := arity_le_of_parse he
    _ ≤ (splitParameters (renderParameters d.parameters ++ [')', ';'])).length :=
      length_splitParameters_le_of_isInfix hend
    _ = (splitParameters (renderParameters d.parameters)).length :=
      length_splitParameters_append_of_unbroken (by decide) (by decide) _
    _ = d.arity := by
      rw [splitParameters_renderParameters hne hu.separate, List.length_map, arity]

theorem Wraps.isStatement (h : Wraps rows (d.render ++ [';'])) (hd : Regular d)
    (hu : Undisturbed d) : IsStatement (unwords ((rows.map indent).map trim)) := by
  rw [h.map_trim hd, h.pieces]
  exact hu.isStatement

theorem Wraps.declarationAt?_first {rest : List (ℕ × Text)}
    (h : Wraps (row :: rest) (d.render ++ [';'])) (hd : Regular d) (hu : Undisturbed d)
    (hlimit : rest.length ≤ limit) :
    declarationAt? limit (indent row) (rest.map indent) = some (d.render ++ [';']) := by
  have hwhole : unwords ((indent row :: rest.map indent).map trim) = d.render ++ [';'] := by
    rw [← List.map_cons, h.map_trim hd, h.pieces]
  have hfirst : trim (indent row) = row.2 := trim_indent (h.tight hd row List.mem_cons_self).2
  have hstart : startsDeclaration (trim (indent row)) = true := by
    obtain ⟨k, x, rest', heq, -⟩ := h.exists_cons hd
    rw [hfirst, (List.cons.inj heq).1]
    exact startsDeclaration_of_regular hd x
  have htype : ¬ typedefWord <+: trim (indent row) := fun ht => by
    have hfront : trim (indent row) <+: d.render ++ [';'] := hwhole ▸ isPrefix_unwords _ _
    exact hu.untyped (isPrefix_of_append_semicolon (by decide) (ht.trans hfront))
  have hclose : [')', ';'] <:+ unwords ((indent row :: rest.map indent).map trim) := by
    rw [hwhole, render_append_semicolon, ← List.cons_append, ← List.append_assoc]
    exact List.suffix_append _ _
  rw [← hwhole]
  exact declarationAt?_eq_some (h.isStatement hd hu) (by simpa using hlimit) htype hstart hclose

theorem Wraps.arity_le {rest : List (ℕ × Text)} {e : Declaration}
    (h : Wraps (row :: rest) (d.render ++ [';'])) (hd : Regular d) (hu : Undisturbed d)
    (hlimit : rest.length ≤ limit)
    (he : e ∈ candidates (declarationsFrom limit (rest.map indent))) : e.arity ≤ d.arity := by
  obtain ⟨t, ht, he⟩ := mem_candidates.mp he
  have hne : rest.map Prod.snd ≠ [] := by
    rw [Ne, List.map_eq_nil_iff]
    rintro rfl
    cases ht
  have hpieces := h.map_trim hd
  rw [List.map_cons, List.map_cons, List.map_cons] at hpieces
  have hrest := (List.cons.inj hpieces).2
  have hstatement := h.isStatement hd hu
  rw [h.map_trim hd, List.map_cons, unwords_cons_of_ne_nil _ hne, ← hrest] at hstatement
  have hsuffix := isSuffix_of_mem_declarationsFrom hstatement.of_append_space
    (by simpa using Nat.le_succ_of_le hlimit) ht
  obtain ⟨k, x, rest', heq, hlist⟩ := h.exists_cons hd
  rw [← (List.cons.inj heq).2] at hlist
  exact arity_le_of_suffix hu hne hlist (hrest ▸ hsuffix) he

/-- The first line gives the declaration, the others give candidates that are no richer. -/
theorem Wraps.candidates_eq (h : Wraps rows (d.render ++ [';'])) (hd : Regular d)
    (hu : Undisturbed d) (hlimit : rows.length ≤ limit + 1) :
    ∃ ds, candidates (declarationsFrom limit (rows.map indent)) = d :: ds ∧
      ∀ e ∈ ds, e.arity ≤ d.arity := by
  cases rows with
  | nil =>
    obtain ⟨k, x, rest, heq, -⟩ := h.exists_cons hd
    cases heq
  | cons row rest =>
    have hlimit : rest.length ≤ limit := by simpa using hlimit
    refine ⟨_, ?_, fun e he => h.arity_le hd hu hlimit he⟩
    rw [List.map_cons, declarationsFrom, h.declarationAt?_first hd hu hlimit, Option.toList_some,
      List.singleton_append, candidates, List.filterMap_cons, hd.parse_render_eq_ok hu.separate]
    rfl

/-- A declaration that was read, written again, broken at spaces of its list into indented lines
and laid as the block of a page is what the page says about its name, when at least as many lines
may be joined as there are breaks. -/
theorem classify_of_wraps (h : parse source = .ok d) (hu : Undisturbed d)
    (hbefore : WholeLines before)
    (hfront : ∀ l ∈ lines (removeOverstrike before), trimEnd l ≠ synopsisHeader)
    (hheader : IsHeader synopsisHeader header) (hrows : Wraps rows (d.render ++ [';']))
    (hafter : EndsBlock after) (hlimit : rows.length ≤ limit + 1) :
    classify d.name (some (before ++ (header ++ (layLines (rows.map indent) ++ after)))) limit =
      .ok ⟨d.name, .found d⟩ := by
  have hd := regular_of_parse h
  have hne : rows.map indent ≠ [] := by
    obtain ⟨k, x, rest, rfl, -⟩ := hrows.exists_cons hd
    simp
  obtain ⟨ds, hcandidates, hle⟩ := hrows.candidates_eq hd hu hlimit
  have hblock := synopsisBlock_of_layLines hbefore hfront hheader hne (hrows.lines hd hu) hafter
  simp only [classify, synopsis, hblock, hrows.marked_eq_false hu, Bool.false_eq_true, if_false,
    ofSynopsis, hcandidates, ofCandidates, select_cons_of_le hu.named hle]
  rfl

/-- Two breaks and an overstruck header. The second line has a parenthesis of its own. -/
theorem classify_of_wrapped_clone :
    let d : Declaration := ⟨"int", "clone", [.callback "int" "(*fn)(void *)",
      .object { baseType := "void", name := "stack", pointer := true }]⟩
    let rows : List (ℕ × Text) :=
      [(5, "int clone(int"), (7, "(*fn)(void *),"), (7, "void *stack);")]
    let page : Text := "CLONE(2)\nS\x08SY\x08YN\x08NO\x08OP\x08PS\x08SI\x08IS\x08S\n" ++
      "     int clone(int\n       (*fn)(void *),\n       void *stack);\nDESCRIPTION\n"
    Wraps rows (d.render ++ [';']) ∧ rows.length ≤ 2 + 1 ∧
      classify "clone" (some page) 2 = .ok ⟨"clone", .found d⟩ := by
  intro d rows page
  have hparse : parse "int clone(int (*fn)(void *), void * stack);" = .ok d := rfl
  have hrows : Wraps rows (d.render ++ [';']) := ⟨by decide, by decide, by decide⟩
  have hu : Undisturbed d :=
    ⟨by decide, by decide, by decide, by decide, by decide, by decide, by decide, by decide⟩
  have hheader : IsHeader synopsisHeader "S\x08SY\x08YN\x08NO\x08OP\x08PS\x08SI\x08IS\x08S" :=
    ⟨by decide, by decide⟩
  have hend : IsHeader descriptionHeader "DESCRIPTION" := ⟨by decide, by decide⟩
  have hbefore : WholeLines "CLONE(2)\n" := Or.inr ⟨"CLONE(2)", by decide⟩
  have hlimit : rows.length ≤ 2 + 1 := by decide
  have hfound := classify_of_wraps hparse hu hbefore (by decide) hheader hrows
    (.header hend []) hlimit
  have hpage : "CLONE(2)\n".toList ++ ("S\x08SY\x08YN\x08NO\x08OP\x08PS\x08SI\x08IS\x08S".toList ++
      (layLines (rows.map indent) ++ '\n' :: ("DESCRIPTION".toList ++ ['\n']))) = page := by
    decide
  exact ⟨hrows, hlimit, hpage ▸ hfound⟩

end CallManual.Resolution
