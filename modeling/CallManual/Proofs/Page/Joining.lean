import CallManual.Page.Synopsis
import CallManual.Proofs.Text.Cut
import CallManual.Proofs.Text.Words

/-!
# Joining the lines of a statement

A statement broken at spaces into lines, with no semicolon but its last and no comment, is put
together again from its first line. From a later line only the part of it that starts there is put
together, so everything that such a block gives is an end of the statement.
-/
namespace CallManual.Page
open Text

variable {a b t line : Text} {rest rows : List Text} {limit : ℕ}

/-- Text with one semicolon, at its end, and without comments. -/
structure IsStatement (t : Text) : Prop where
  closed : t.getLast? = some ';'
  single : ';' ∉ t.dropLast
  uncommented : ¬ commentOpen <:+: t

theorem IsStatement.of_append (h : IsStatement (a ++ b)) (hb : b ≠ []) : IsStatement b := by
  obtain ⟨hclosed, hsingle, hcomment⟩ := h
  rw [List.getLast?_append_of_ne_nil _ hb] at hclosed
  rw [List.dropLast_append_of_ne_nil hb, List.mem_append, not_or] at hsingle
  exact ⟨hclosed, hsingle.2, fun hc => hcomment (List.infix_append_of_infix_right hc)⟩

theorem IsStatement.of_append_space (h : IsStatement (a ++ ' ' :: b)) : IsStatement b := by
  have hb : b ≠ [] := by
    rintro rfl
    simpa using h.closed
  rw [← List.singleton_append, ← List.append_assoc] at h
  exact h.of_append hb

/-- The text in front of the end of a statement does not end it. -/
theorem IsStatement.endsInSemicolon_eq_false (h : IsStatement (a ++ b)) (hb : b ≠ []) :
    endsInSemicolon a = false := by
  have hsingle := h.single
  rw [List.dropLast_append_of_ne_nil hb, List.mem_append, not_or] at hsingle
  have hlast : a.getLast? ≠ some ';' := fun hl => hsingle.1 (List.mem_of_getLast? hl)
  simpa [endsInSemicolon] using hlast

theorem stripComment_eq_self (h : ¬ commentOpen <:+: t) : stripComment t = t := by
  rw [stripComment, cutAt?_eq_none_iff.mpr h]

theorem joinLines_of_endsInSemicolon (h : endsInSemicolon line = true) (limit : ℕ)
    (rest : List Text) : joinLines limit line rest = line := by
  cases limit <;> cases rest <;> simp [joinLines, h]

theorem joinLines_cons (h : endsInSemicolon line = false) (limit : ℕ) (next : Text)
    (rest : List Text) : joinLines (limit + 1) line (next :: rest) =
      joinLines limit (stripComment (line ++ ' ' :: trim next)) rest := by
  rw [joinLines, if_neg (by simp [h])]

theorem joinLines_nil (limit : ℕ) (line : Text) : joinLines limit line [] = line := by
  cases limit <;> rfl

/-- What holds of the first line and is kept by each step of joining holds of what is joined. -/
theorem joinLines_induction {P : Text → Prop}
    (step : ∀ line next, P line → P (stripComment (line ++ ' ' :: trim next))) (h : P line)
    (limit : ℕ) (rest : List Text) : P (joinLines limit line rest) := by
  induction limit generalizing line rest with
  | zero => exact h
  | succ limit ih =>
    cases rest with
    | nil => exact h
    | cons next rest =>
      rw [joinLines]
      split
      · exact h
      · exact ih (step line next h) rest

/-- Enough lines may be joined, so all of them are. -/
theorem joinLines_eq_unwords (h : IsStatement (unwords (line :: rest.map trim)))
    (hlimit : rest.length ≤ limit) :
    joinLines limit line rest = unwords (line :: rest.map trim) := by
  induction rest generalizing limit line with
  | nil =>
    rw [List.map_nil, unwords_singleton, joinLines_nil]
  | cons next rest ih =>
    cases limit with
    | zero => simp at hlimit
    | succ limit =>
      have hends : endsInSemicolon line = false := by
        rw [List.map_cons, unwords_cons_cons] at h
        exact h.endsInSemicolon_eq_false (by simp)
      rw [List.map_cons, ← unwords_append_space] at h ⊢
      have hcomment : ¬ commentOpen <:+: line ++ ' ' :: trim next := fun hc =>
        h.uncommented (hc.trans (isPrefix_unwords _ _).isInfix)
      rw [joinLines_cons hends, stripComment_eq_self hcomment, ih h (by simpa using hlimit)]

theorem startsDeclaration_iff : startsDeclaration t = true ↔ 2 ≤ (words t).length ∧ '(' ∈ t := by
  simp [startsDeclaration]

theorem startsDeclaration_append_space (h : startsDeclaration a = true) (b : Text) :
    startsDeclaration (a ++ ' ' :: b) = true := by
  rw [startsDeclaration_iff] at h ⊢
  rw [words_append_blank a b isBlank_space, List.length_append]
  exact ⟨by omega, by simp [h.2]⟩

theorem startsDeclaration_unwords {w : Text} (h : startsDeclaration w = true) (ws : List Text) :
    startsDeclaration (unwords (w :: ws)) = true := by
  cases ws with
  | nil => rwa [unwords_singleton]
  | cons v ws => exact unwords_cons_cons w v ws ▸ startsDeclaration_append_space h _

/-- A declaration starts on a line when the line is no type definition, has the look of a start, and
what is joined to it still has this look and is closed. -/
theorem declarationAt?_eq_some_iff : declarationAt? limit line rest = some t ↔
    ¬ typedefWord <+: trim line ∧ startsDeclaration (stripComment (trim line)) = true ∧
      joinLines limit (stripComment (trim line)) rest = t ∧
      startsDeclaration t = true ∧ [')', ';'] <:+ t := by
  simp only [declarationAt?, List.isPrefixOf_iff_prefix, Bool.and_eq_true,
    List.isSuffixOf_iff_suffix, Option.ite_none_left_eq_some, Option.ite_none_right_eq_some,
    Option.some.injEq]
  constructor
  · rintro ⟨htype, hstart, hclosed, rfl⟩
    exact ⟨htype, hstart, rfl, hclosed⟩
  · rintro ⟨htype, hstart, rfl, hclosed⟩
    exact ⟨htype, hstart, hclosed, rfl⟩

/-- What starts on the first line of a statement is the statement, if anything does. -/
theorem eq_unwords_of_declarationAt? (h : IsStatement (unwords ((line :: rest).map trim)))
    (hlimit : rest.length ≤ limit) (ht : declarationAt? limit line rest = some t) :
    t = unwords ((line :: rest).map trim) := by
  have hcomment : ¬ commentOpen <:+: trim line := fun hc =>
    h.uncommented (hc.trans (isPrefix_unwords _ _).isInfix)
  obtain ⟨-, -, hjoin, -⟩ := declarationAt?_eq_some_iff.mp ht
  rw [List.map_cons] at h ⊢
  rw [← hjoin, stripComment_eq_self hcomment, joinLines_eq_unwords h hlimit]

theorem declarationAt?_eq_some (h : IsStatement (unwords ((line :: rest).map trim)))
    (hlimit : rest.length ≤ limit) (htype : ¬ typedefWord <+: trim line)
    (hstart : startsDeclaration (trim line) = true)
    (hclose : [')', ';'] <:+ unwords ((line :: rest).map trim)) :
    declarationAt? limit line rest = some (unwords ((line :: rest).map trim)) := by
  have hcomment : ¬ commentOpen <:+: trim line := fun hc =>
    h.uncommented (hc.trans (isPrefix_unwords _ _).isInfix)
  rw [List.map_cons] at h hclose ⊢
  rw [declarationAt?_eq_some_iff, stripComment_eq_self hcomment]
  exact ⟨htype, hstart, joinLines_eq_unwords h hlimit, startsDeclaration_unwords hstart _, hclose⟩

theorem isSuffix_of_mem_declarationsFrom (h : IsStatement (unwords (rows.map trim)))
    (hlimit : rows.length ≤ limit + 1) (ht : t ∈ declarationsFrom limit rows) :
    t <:+ unwords (rows.map trim) := by
  induction rows with
  | nil => cases ht
  | cons line rest ih =>
    have hrest : rest.length ≤ limit := by simpa using hlimit
    rcases List.mem_append.mp ht with ht | ht
    · obtain rfl := eq_unwords_of_declarationAt? h hrest (Option.mem_toList.mp ht)
      exact List.suffix_rfl
    · cases rest with
      | nil => cases ht
      | cons next rest =>
        rw [List.map_cons, List.map_cons, unwords_cons_cons] at h ⊢
        exact (ih h.of_append_space (Nat.le_succ_of_le hrest) ht).trans
          ((List.suffix_cons ' ' _).trans (List.suffix_append _ _))

end CallManual.Page
