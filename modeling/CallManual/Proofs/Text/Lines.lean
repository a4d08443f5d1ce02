import CallManual.Proofs.Text.Trim
import Mathlib.Data.List.Count

/-!
# Lines

A line feed takes a text apart into lines on both sides, so a text whose lines are laid one after
another has just these lines.
-/
namespace CallManual.Text

variable {a b l t : Text} {ls : List Text}

/-- A text that stands as it is on a line of its own. -/
structure IsLine (l : Text) : Prop where
  ne_nil : l ≠ []
  unbroken : '\n' ∉ l
  unreturned : l.getLast? ≠ some '\r'

/-- Text that ends with a line, if it has any. -/
def WholeLines (t : Text) : Prop := t = [] ∨ ∃ s, t = s ++ ['\n']

/-- Each line behind a line feed. -/
def layLines (ls : List Text) : Text := ls.flatMap fun l => '\n' :: l

@[simp] theorem layLines_nil : layLines [] = [] := rfl

@[simp] theorem layLines_cons (l : Text) (ls : List Text) :
    layLines (l :: ls) = '\n' :: (l ++ layLines ls) := rfl

@[simp] theorem lines_nil : lines [] = [] := by decide

theorem splitOn_of_unbroken {mark : Char} (h : mark ∉ l) : l.splitOn mark = [l] :=
  List.splitOnP_eq_singleton fun c hc => by
    simpa using fun he : c = mark => h (he ▸ hc)

theorem splitOn_append_cons (mark : Char) (a b : Text) :
    (a ++ mark :: b).splitOn mark = a.splitOn mark ++ b.splitOn mark :=
  List.splitOnP_append_cons a b (by simp)

theorem lines_append_break (a b : Text) :
    lines (a ++ '\n' :: b) = (a.splitOn '\n').map chopReturn ++ lines b := by
  have hne : b.splitOn '\n' ≠ [] := List.splitOnP_ne_nil _ b
  have hlength : (a.splitOn '\n' ++ b.splitOn '\n').length - 1 =
      (a.splitOn '\n').length + ((b.splitOn '\n').length - 1) := by
    have := List.length_pos_of_ne_nil hne
    rw [List.length_append]
    omega
  simp only [lines, splitOn_append_cons, hlength, List.dropLast_append_of_ne_nil hne,
    List.drop_length_add_append, List.map_append, List.append_assoc]

theorem lines_line_append (h : '\n' ∉ l) (b : Text) :
    lines (l ++ '\n' :: b) = chopReturn l :: lines b := by
  rw [lines_append_break, splitOn_of_unbroken h]
  rfl

theorem lines_last (h : '\n' ∉ l) (hne : l ≠ []) : lines l = [l] := by
  simp [lines, splitOn_of_unbroken h, hne]

theorem lines_append (ha : WholeLines a) (b : Text) : lines (a ++ b) = lines a ++ lines b := by
  rcases ha with rfl | ⟨s, rfl⟩
  · rfl
  · rw [List.append_assoc, List.singleton_append, lines_append_break, lines_append_break,
      lines_nil, List.append_nil]

theorem length_splitOn (t : Text) : (t.splitOn '\n').length = t.count '\n' + 1 := by
  unfold List.splitOn
  induction t with
  | nil => rfl
  | cons c t ih =>
    rw [List.splitOnP_cons_eq_if_modifyHead, List.count_cons]
    split
    · rw [List.length_cons, ih]
    · rw [List.length_modifyHead, ih, Nat.add_zero]

theorem length_lines (h : WholeLines t) : (lines t).length = t.count '\n' := by
  rcases h with rfl | ⟨s, rfl⟩
  · rfl
  · rw [lines_append_break, lines_nil, List.append_nil, List.length_map, length_splitOn,
      List.count_append]
    rfl

theorem IsLine.chopReturn_eq (h : IsLine l) : chopReturn l = l := if_neg h.unreturned

/-- The carriage return of a line end is white space at its end. -/
theorem trimEnd_chopReturn (l : Text) : trimEnd (chopReturn l) = trimEnd l := by
  unfold chopReturn
  split
  · next h =>
    obtain ⟨s, rfl⟩ := List.getLast?_eq_some_iff.mp h
    have hreturn : isBlank '\r' = true := by decide
    simp [trimEnd, hreturn]
  · rfl

theorem lines_append_layLines (hl : IsLine l) (hls : ∀ x ∈ ls, IsLine x) :
    lines (l ++ layLines ls) = l :: ls := by
  induction ls generalizing l with
  | nil => rw [layLines_nil, List.append_nil, lines_last hl.unbroken hl.ne_nil]
  | cons x ls ih =>
    obtain ⟨hx, hls⟩ := List.forall_mem_cons.mp hls
    rw [layLines_cons, lines_line_append hl.unbroken, hl.chopReturn_eq, ih hx hls]

theorem lines_append_layLines_append (hl : IsLine l) (hls : ∀ x ∈ ls, IsLine x) (b : Text) :
    lines (l ++ layLines ls ++ '\n' :: b) = l :: ls ++ lines b := by
  induction ls generalizing l with
  | nil => rw [layLines_nil, List.append_nil, lines_line_append hl.unbroken, hl.chopReturn_eq]; rfl
  | cons x ls ih =>
    obtain ⟨hx, hls⟩ := List.forall_mem_cons.mp hls
    rw [layLines_cons, List.append_assoc, List.cons_append, lines_line_append hl.unbroken,
      hl.chopReturn_eq, ih hx hls]
    rfl

end CallManual.Text
