import CallManual.Proofs.Declaration.Reading
import CallManual.Proofs.Page.Context
import CallManual.Proofs.Page.Joining

/-!
# What is extracted

Cutting out a comment leaves no comment, not even where the two sides meet, so whatever is joined is
free of comments. A declaration that is extracted has both of its parentheses. White space stands in
front of it only where comments took up all that had been joined, and then it is spaces.
-/
namespace CallManual.Page
open Text

variable {line s t : Text} {ls rest : List Text} {limit : ℕ}

/-- No comment opens in front of a place where one closes. -/
def CommentFree (t : Text) : Prop :=
  ∀ i j, commentOpen <+: t.drop i → commentClose <+: t.drop j → j ≤ i

theorem unbordered_commentOpen : Unbordered commentOpen := by decide

theorem CommentFree.of_isInfix (h : CommentFree t) (hs : s <:+: t) : CommentFree s := by
  obtain ⟨a, b, rfl⟩ := hs
  have hshift {w : Text} {i : ℕ} (hw : w <+: s.drop i) :
      w <+: (a ++ s ++ b).drop (a.length + i) := by
    rw [List.append_assoc, List.drop_length_add_append, List.drop_append]
    exact hw.trans (List.prefix_append _ _)
  intro i j hi hj
  have := h _ _ (hshift hi) (hshift hj)
  omega

theorem commentFree_of_not_opened (h : ¬ commentOpen <:+: t) : CommentFree t :=
  fun i _ hi _ => absurd (hi.isInfix.trans (List.drop_suffix i t).isInfix) h

/-- A text without comments stays as it is. In any other, what stands in front of the first opening
and behind the last closing is put together and trimmed. An opening and a closing cannot both arise
where the two sides meet, and there is no opening in front of this place and no closing behind it. -/
theorem stripComment_cases (t : Text) : (CommentFree t ∧ stripComment t = t) ∨
    ¬ CommentFree t ∧ ∃ a b, CommentFree (a ++ b) ∧ stripComment t = trim (a ++ b) := by
  cases hcut : cutAt? commentOpen t with
  | none =>
    exact Or.inl ⟨commentFree_of_not_opened (cutAt?_eq_none_iff.mp hcut), by rw [stripComment, hcut]⟩
  | some sides =>
    obtain ⟨before, opened⟩ := sides
    obtain ⟨rfl, ⟨rest, rfl⟩, hbefore⟩ := (cutAt?_eq_some_iff unbordered_commentOpen).mp hcut
    have hne : commentClose ≠ [] := by decide
    have hsplit : before ++ (commentOpen ++ rest) = (before ++ ['/']) ++ '*' :: rest := by
      simp [commentOpen]
    cases hlast : afterLast? commentClose (commentOpen ++ rest).tail with
    | none =>
      refine Or.inl ⟨fun i j hi hj => ?_, by simp only [stripComment, hcut, hlast]⟩
      have hopen := unbordered_commentOpen.length_le_of_isPrefix_drop hbefore hi
      rw [hsplit] at hj
      have hclose := lt_length_of_isPrefix_drop ((afterLast?_eq_none_iff hne).mp hlast) hj
      simp only [List.length_append, List.length_singleton] at hclose
      omega
    | some after =>
      obtain ⟨x, hx, hafter⟩ := exists_of_afterLast? hne hlast
      refine Or.inr ⟨fun hfree => ?_, before, after, fun i j hi hj => ?_, ?_⟩
      · have hx : '*' :: rest = x ++ (commentClose ++ after) := hx
        have hopen : commentOpen <+: (before ++ (commentOpen ++ rest)).drop before.length := by
          simp
        have hclose : commentClose <+:
            (before ++ (commentOpen ++ rest)).drop (before ++ ['/'] ++ x).length := by
          rw [hsplit, hx, ← List.append_assoc, List.drop_left]
          exact List.prefix_append _ _
        have := hfree _ _ hopen hclose
        simp only [List.length_append, List.length_singleton] at this
        omega
      · have hopen := length_lt_of_isPrefix_drop hbefore hi
        have hclose := lt_length_of_isPrefix_drop (fun h => hafter (List.infix_cons h)) hj
        have hlength : commentOpen.length = 2 := rfl
        omega
      · simp only [stripComment, hcut, hlast]

theorem commentFree_stripComment (t : Text) : CommentFree (stripComment t) := by
  obtain ⟨hfree, hstrip⟩ | ⟨-, a, b, hfree, hstrip⟩ := stripComment_cases t
  · rwa [hstrip]
  · rw [hstrip]
    exact hfree.of_isInfix (trim_isInfix _)

theorem stripComment_of_commentFree (h : CommentFree t) : stripComment t = t := by
  obtain ⟨-, hstrip⟩ | ⟨hnot, -⟩ := stripComment_cases t
  · exact hstrip
  · exact absurd h hnot

theorem stripComment_eq_self_or_tight (t : Text) :
    stripComment t = t ∨ Tight (stripComment t) := by
  obtain ⟨-, hstrip⟩ | ⟨-, a, b, -, hstrip⟩ := stripComment_cases t
  · exact Or.inl hstrip
  · exact Or.inr (hstrip ▸ tight_trim _)

/-- White space in front of the text is spaces. -/
def Indented (t : Text) : Prop :=
  ∃ k s, t = List.replicate k ' ' ++ s ∧ ∀ c ∈ s.head?, isBlank c = false

theorem indented_of_tight (h : Tight t) : Indented t := ⟨0, t, rfl, h.1⟩

theorem indented_stripComment (h : Indented t) : Indented (stripComment t) := by
  rcases stripComment_eq_self_or_tight t with hstrip | htight
  · rwa [hstrip]
  · exact indented_of_tight htight

theorem indented_append_space (h : Indented t) (next : Text) : Indented (t ++ ' ' :: trim next) := by
  obtain ⟨k, s, rfl, hs⟩ := h
  cases s with
  | nil =>
    refine ⟨k + 1, trim next, ?_, (tight_trim next).1⟩
    rw [List.replicate_succ', List.append_assoc, List.append_assoc]
    rfl
  | cons c s => exact ⟨k, c :: s ++ ' ' :: trim next, by simp, by simpa using hs⟩

theorem indented_joinLines (h : Indented line) (limit : ℕ) (rest : List Text) :
    Indented (joinLines limit line rest) :=
  joinLines_induction (fun _ next h => indented_stripComment (indented_append_space h next)) h
    limit rest

theorem Indented.exists_eq_append_trim (h : Indented t)
    (hlast : ∀ c ∈ t.getLast?, isBlank c = false) : ∃ k, t = List.replicate k ' ' ++ trim t := by
  obtain ⟨k, s, rfl, hhead⟩ := h
  have htight : Tight s := by
    refine ⟨hhead, fun c hc => hlast c ?_⟩
    rw [List.getLast?_append, Option.mem_def.mp hc]
    rfl
  have hspaces : AllBlank (List.replicate k ' ') := fun c hc =>
    List.eq_of_mem_replicate hc ▸ isBlank_space
  exact ⟨k, by rw [trim_blank_append hspaces, trim_eq_self htight]⟩

/-- The text starts with a character that is no white space. -/
def Flush (t : Text) : Prop := ∃ c s, t = c :: s ∧ isBlank c = false

theorem flush_of_tight (h : Tight t) (hne : t ≠ []) : Flush t := by
  obtain ⟨c, s, rfl⟩ := List.exists_cons_of_ne_nil hne
  exact ⟨c, s, rfl, h.1 c rfl⟩

theorem Flush.append (h : Flush t) (s : Text) : Flush (t ++ s) := by
  obtain ⟨c, x, rfl, hc⟩ := h
  exact ⟨c, x ++ s, rfl, hc⟩

theorem stripComment_eq_nil_or_flush (h : Flush t) :
    stripComment t = [] ∨ Flush (stripComment t) := by
  refine or_iff_not_imp_left.mpr fun hne => ?_
  rcases stripComment_eq_self_or_tight t with hstrip | htight
  · rwa [hstrip]
  · exact flush_of_tight htight hne

/-- White space comes in front of joined lines only behind comments that took up all of them. -/
theorem flush_joinLines_or (h : Flush line) (limit : ℕ) (rest : List Text) :
    Flush (joinLines limit line rest) ∨ ∃ j ≤ limit, joinLines j line rest = [] := by
  induction limit generalizing line rest with
  | zero => exact Or.inl h
  | succ limit ih =>
    cases rest with
    | nil => exact Or.inl h
    | cons next rest =>
      cases hends : endsInSemicolon line with
      | true =>
        rw [joinLines_of_endsInSemicolon hends]
        exact Or.inl h
      | false =>
        rcases stripComment_eq_nil_or_flush (h.append (' ' :: trim next)) with hnil | hflush
        · exact Or.inr ⟨1, by omega, by rw [joinLines_cons hends, hnil, joinLines]⟩
        · rw [joinLines_cons hends]
          refine (ih hflush rest).imp_right ?_
          rintro ⟨j, hle, hj⟩
          exact ⟨j + 1, by omega, by rw [joinLines_cons hends, hj]⟩

theorem mem_declarationsFrom : t ∈ declarationsFrom limit ls ↔
    ∃ front line rest, ls = front ++ line :: rest ∧ declarationAt? limit line rest = some t := by
  induction ls with
  | nil => simp [declarationsFrom]
  | cons line rest ih =>
    rw [declarationsFrom, List.mem_append, Option.mem_toList, ih]
    constructor
    · rintro (h | ⟨front, line', rest', rfl, h⟩)
      · exact ⟨[], line, rest, rfl, h⟩
      · exact ⟨line :: front, line', rest', rfl, h⟩
    · rintro ⟨front, line', rest', hsplit, h⟩
      cases front with
      | nil =>
        obtain ⟨rfl, rfl⟩ := List.cons.inj hsplit
        exact Or.inl h
      | cons x front => exact Or.inr ⟨front, line', rest', (List.cons.inj hsplit).2, h⟩

/-- What a declaration is like that starts on a line of a block, given the lines behind it. -/
structure IsExtracted (limit : ℕ) (line : Text) (rest : List Text) (t : Text) : Prop where
  joined : joinLines limit (stripComment (trim line)) rest = t
  closed : [')', ';'] <:+ t
  commentFree : CommentFree t
  trailing : trimEnd t = t
  leading : ∃ k, t = List.replicate k ' ' ++ trim t
  tight : (∀ j ≤ limit, joinLines j (stripComment (trim line)) rest ≠ []) → trim t = t
  parenthesized : ∀ l, Declaration.parse t ≠ .error (.missingOpenParen l) ∧
    Declaration.parse t ≠ .error (.missingCloseParen l)

theorem isExtracted_of_declarationAt? (h : declarationAt? limit line rest = some t) :
    IsExtracted limit line rest t := by
  obtain ⟨-, hstart, hjoin, hlook, hclosed⟩ := declarationAt?_eq_some_iff.mp h
  have hlast : ∀ c ∈ t.getLast?, isBlank c = false := by
    obtain ⟨s, rfl⟩ := hclosed
    intro c hc
    obtain rfl : ';' = c := by simpa using hc
    decide
  have hfirst : Tight (stripComment (trim line)) := by
    rcases stripComment_eq_self_or_tight (trim line) with hstrip | htight
    · rw [hstrip]
      exact tight_trim line
    · exact htight
  refine ⟨hjoin, hclosed, ?_, trimEnd_eq_self hlast, ?_, fun hne => ?_,
    Declaration.parse_ne_missing_paren (startsDeclaration_iff.mp hlook).2 hclosed⟩
  · rw [← hjoin]
    exact joinLines_induction (fun _ _ _ => commentFree_stripComment _)
      (commentFree_stripComment _) limit rest
  · have hindented := indented_joinLines (indented_of_tight hfirst) limit rest
    rw [hjoin] at hindented
    exact hindented.exists_eq_append_trim hlast
  · have hnil : stripComment (trim line) ≠ [] := by
      intro hnil
      rw [hnil] at hstart
      exact absurd hstart (by decide)
    rcases flush_joinLines_or (flush_of_tight hfirst hnil) limit rest with hflush | ⟨j, hle, hj⟩
    · obtain ⟨c, s, rfl, hc⟩ := hjoin ▸ hflush
      exact trim_eq_self ⟨by simpa using hc, hlast⟩
    · exact absurd hj (hne j hle)

/-- Every declaration of a page is the extract of one line of its block. Cutting out comments a
second time changes nothing. -/
theorem isExtracted_of_synopsis (page : Text) (limit : ℕ) :
    (∀ ls, synopsis page limit = .declarations ls → ∀ t ∈ ls, ∃ front line rest,
      synopsisBlock (removeOverstrike page) = front ++ line :: rest ∧
        IsExtracted limit line rest t) ∧
    ∀ t, stripComment (stripComment t) = stripComment t := by
  refine ⟨fun ls hls t ht => ?_, fun t => stripComment_of_commentFree (commentFree_stripComment t)⟩
  obtain ⟨-, rfl⟩ := synopsis_eq_declarations_iff.mp hls
  obtain ⟨front, line, rest, hblock, h⟩ := mem_declarationsFrom.mp ht
  exact ⟨front, line, rest, hblock, isExtracted_of_declarationAt? h⟩

/-- Where the comment is cut out, its two sides meet in an opening of a comment. -/
theorem isExtracted_of_nested_comment :
    let page : Text := "SYNOPSIS\n int f(int a //* from */* to */* b);\n"
    let t : Text := "int f(int a /* b);"
    synopsis page 3 = .declarations [t] ∧ commentOpen <:+: t ∧
      ∃ line rest, IsExtracted 3 line rest t := by
  intro page t
  have hls : synopsis page 3 = .declarations [t] := by decide
  obtain ⟨front, line, rest, -, h⟩ := (isExtracted_of_synopsis page 3).1 _ hls t (by simp)
  exact ⟨hls, ⟨"int f(int a ".toList, " b);".toList, by decide⟩, line, rest, h⟩

/-- A comment over two lines takes up all that is joined so far, and the third line is put behind a
space. -/
theorem not_forall_tight_of_synopsis :
    ¬ ∀ (page : Text) (limit : ℕ) (ls : List Text), synopsis page limit = .declarations ls →
      ∀ t ∈ ls, trim t = t := by
  intro h
  have hls : synopsis "SYNOPSIS\n/* a b(\n*/\nint f(int a);\n" 3 =
      .declarations [" int f(int a);", "int f(int a);"] := by
    decide
  exact absurd (h _ 3 _ hls _ List.mem_cons_self) (by decide)

end CallManual.Page
