import CallManual.Page.Synopsis
import CallManual.Proofs.Text.Lines

/-!
# Finding the synopsis block

Removing overstruck characters works line by line, so lines without backspaces that stand between
the two headers are the block, whatever comes before and after and however the headers are struck.
-/
namespace CallManual.Page
open Text

variable {a b t before header line after : Text} {rows : List Text} {c : Char}

theorem removeOverstrike_cons (hc : t.head? ≠ some backspace) :
    removeOverstrike (c :: t) = c :: removeOverstrike t := by
  cases t with
  | nil => rfl
  | cons d t =>
    have hd : d ≠ backspace := by simpa using hc
    simp [removeOverstrike, hd]

/-- A line feed stays, whatever follows it. -/
theorem removeOverstrike_break (t : Text) :
    removeOverstrike ('\n' :: t) = '\n' :: removeOverstrike t := by
  cases t with
  | nil => rfl
  | cons d t => simp [removeOverstrike]

theorem removeOverstrike_append_break (a b : Text) :
    removeOverstrike (a ++ '\n' :: b) = removeOverstrike a ++ '\n' :: removeOverstrike b := by
  fun_induction removeOverstrike a with
  | case1 => exact removeOverstrike_break b
  | case2 c =>
    rw [List.singleton_append, removeOverstrike_cons (by simpa using (by decide)),
      removeOverstrike_break]
    rfl
  | case3 c d t h ih => rw [List.cons_append, List.cons_append, removeOverstrike, if_pos h, ih]
  | case4 c d t h ih =>
    rw [List.cons_append, List.cons_append, removeOverstrike, if_neg h, ← List.cons_append, ih,
      List.cons_append]

theorem removeOverstrike_append (ha : backspace ∉ a) (hb : b.head? ≠ some backspace) :
    removeOverstrike (a ++ b) = a ++ removeOverstrike b := by
  induction a with
  | nil => rfl
  | cons c a ih =>
    rw [List.mem_cons, not_or] at ha
    have hhead : (a ++ b).head? ≠ some backspace := by
      cases a with
      | nil => exact hb
      | cons d a => simpa using fun hd : d = backspace => ha.2 (by simp [hd])
    rw [List.cons_append, removeOverstrike_cons hhead, ih ha.2, List.cons_append]

theorem removeOverstrike_sublist (t : Text) : (removeOverstrike t).Sublist t := by
  fun_induction removeOverstrike t with
  | case1 => exact List.Sublist.refl _
  | case2 c => exact List.Sublist.refl _
  | case3 c d t _ ih => exact (ih.cons d).cons c
  | case4 c d t _ ih => exact ih.cons_cons c

theorem count_break_removeOverstrike (t : Text) :
    (removeOverstrike t).count '\n' = t.count '\n' := by
  fun_induction removeOverstrike t with
  | case1 => rfl
  | case2 => rfl
  | case3 c d t h ih =>
    obtain ⟨rfl, hc⟩ : d = backspace ∧ c ≠ '\n' := by simpa using h
    have hd : backspace ≠ '\n' := by decide
    rw [ih, List.count_cons_of_ne hc, List.count_cons_of_ne hd]
  | case4 c d t h ih => rw [List.count_cons, ih, ← List.count_cons]

theorem wholeLines_removeOverstrike (h : WholeLines t) : WholeLines (removeOverstrike t) := by
  rcases h with rfl | ⟨s, rfl⟩
  · exact Or.inl rfl
  · exact Or.inr ⟨removeOverstrike s, removeOverstrike_append_break s []⟩

theorem length_lines_removeOverstrike (h : WholeLines t) :
    (lines (removeOverstrike t)).length = (lines t).length := by
  rw [length_lines (wholeLines_removeOverstrike h), count_break_removeOverstrike, length_lines h]

theorem removeOverstrike_wholeLines_append (h : WholeLines a) (b : Text) :
    removeOverstrike (a ++ b) = removeOverstrike a ++ removeOverstrike b := by
  rcases h with rfl | ⟨s, rfl⟩
  · rfl
  · rw [List.append_assoc, List.singleton_append, removeOverstrike_append_break,
      removeOverstrike_append_break, removeOverstrike, List.append_assoc, List.singleton_append]

/-- A line that is the header without its overstruck characters and the white space at its end. -/
def IsHeader (header line : Text) : Prop :=
  '\n' ∉ line ∧ trimEnd (removeOverstrike line) = header

theorem IsHeader.unbroken (h : IsHeader header line) : '\n' ∉ removeOverstrike line :=
  fun hm => h.1 ((removeOverstrike_sublist line).mem hm)

/-- What may stand behind the last line of the block. -/
inductive EndsBlock : Text → Prop
  | page : EndsBlock []
  | lastLine : EndsBlock ['\n']
  | lastHeader {l : Text} (h : IsHeader descriptionHeader l) : EndsBlock ('\n' :: l)
  | header {l : Text} (h : IsHeader descriptionHeader l) (rest : Text) :
      EndsBlock ('\n' :: (l ++ '\n' :: rest))

theorem EndsBlock.eq_nil_or (h : EndsBlock after) : after = [] ∨ ∃ t, after = '\n' :: t ∧
    ∀ l ∈ (lines (removeOverstrike t)).head?, trimEnd l = descriptionHeader := by
  cases h with
  | page => exact Or.inl rfl
  | lastLine => exact Or.inr ⟨[], rfl, by simp [removeOverstrike]⟩
  | @lastHeader l h =>
    have hne : removeOverstrike l ≠ [] := by
      intro he
      have := h.2
      rw [he] at this
      exact absurd this (by decide)
    exact Or.inr ⟨l, rfl, by simpa [lines_last h.unbroken hne] using h.2⟩
  | @header l h rest =>
    refine Or.inr ⟨l ++ '\n' :: rest, rfl, ?_⟩
    rw [removeOverstrike_append_break, lines_line_append h.unbroken]
    simpa [trimEnd_chopReturn] using h.2

/-- The lines of a text up to the header that ends a block. -/
def linesBeforeDescription (t : Text) : List Text :=
  (lines (removeOverstrike t)).takeWhile fun l => trimEnd l != descriptionHeader

/-- Text of whole lines none of which is the header, however the header is struck. -/
structure Lacks (header t : Text) : Prop where
  whole : WholeLines t
  lacks : ∀ l ∈ lines (removeOverstrike t), trimEnd l ≠ header

theorem lines_removeOverstrike_append (ha : WholeLines a) (b : Text) :
    lines (removeOverstrike (a ++ b)) =
      lines (removeOverstrike a) ++ lines (removeOverstrike b) := by
  rw [removeOverstrike_wholeLines_append ha, lines_append (wholeLines_removeOverstrike ha)]

theorem synopsisBlock_of_header (hbefore : Lacks synopsisHeader before)
    (hheader : IsHeader synopsisHeader header) (rest : Text) :
    synopsisBlock (removeOverstrike (before ++ (header ++ '\n' :: rest))) =
      linesBeforeDescription rest := by
  have hlines : lines (removeOverstrike (before ++ (header ++ '\n' :: rest))) =
      lines (removeOverstrike before) ++
        chopReturn (removeOverstrike header) :: lines (removeOverstrike rest) := by
    rw [lines_removeOverstrike_append hbefore.whole, removeOverstrike_append_break,
      lines_line_append hheader.unbroken]
  have hname : trimEnd (chopReturn (removeOverstrike header)) = synopsisHeader := by
    rw [trimEnd_chopReturn, hheader.2]
  have hdrop : (lines (removeOverstrike (before ++ (header ++ '\n' :: rest)))).dropWhile
      (fun l => trimEnd l != synopsisHeader) =
        chopReturn (removeOverstrike header) :: lines (removeOverstrike rest) := by
    rw [hlines, List.dropWhile_append_of_pos (by simpa using hbefore.lacks)]
    simp [hname]
  rw [synopsisBlock, hdrop, List.drop_one, List.tail_cons, linesBeforeDescription]

/-- Lines laid between the headers are the block. -/
theorem synopsisBlock_of_layLines (hbefore : WholeLines before)
    (hfront : ∀ l ∈ lines (removeOverstrike before), trimEnd l ≠ synopsisHeader)
    (hheader : IsHeader synopsisHeader header) (hne : rows ≠ [])
    (hrows : ∀ l ∈ rows, IsLine l ∧ backspace ∉ l ∧ trimEnd l ≠ descriptionHeader)
    (hafter : EndsBlock after) :
    synopsisBlock (removeOverstrike (before ++ (header ++ (layLines rows ++ after)))) = rows := by
  obtain ⟨row, rows, rfl⟩ := List.exists_cons_of_ne_nil hne
  obtain ⟨hrow, hrest⟩ := List.forall_mem_cons.mp fun l hl => (hrows l hl).1
  have hstruck : backspace ∉ row ++ layLines rows := by
    have hback (l : Text) (hl : l ∈ row :: rows) : backspace ∉ l := (hrows l hl).2.1
    have hne : backspace ≠ '\n' := by decide
    simp only [layLines, List.mem_append, List.mem_flatMap, List.mem_cons, not_or, not_exists]
    exact ⟨hback row List.mem_cons_self, fun l hl => hl.2.elim hne (hback l (by simp [hl.1]))⟩
  rw [layLines_cons, List.cons_append, synopsisBlock_of_header ⟨hbefore, hfront⟩ hheader,
    linesBeforeDescription]
  rcases hafter.eq_nil_or with rfl | ⟨t, rfl, ht⟩
  · rw [removeOverstrike_append hstruck (by simp), removeOverstrike, List.append_nil,
      lines_append_layLines hrow hrest, List.takeWhile_eq_self_iff]
    exact fun l hl => by simpa using (hrows l hl).2.2
  · have hbreak : ('\n' :: t).head? ≠ some backspace := by simpa using (by decide)
    have hend : (lines (removeOverstrike t)).takeWhile (fun l => trimEnd l != descriptionHeader) =
        [] := by
      cases hlines : lines (removeOverstrike t) with
      | nil => rfl
      | cons l ls => simp [ht l (by rw [hlines]; rfl)]
    rw [removeOverstrike_append hstruck hbreak, removeOverstrike_break,
      lines_append_layLines_append hrow hrest, List.takeWhile_append_of_pos
        fun l hl => by simpa using (hrows l hl).2.2, hend, List.append_nil]

end CallManual.Page
