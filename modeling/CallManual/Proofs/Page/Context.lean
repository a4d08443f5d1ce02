import CallManual.Proofs.Page.Block
import CallManual.Proofs.Text.Cut

/-!
# The page around a block

The block is what the lines behind the first header are up to the second one, so a page and the
same page with more lines in front of its block or behind it have blocks that differ in these lines
alone. What starts on a line of the block depends on the lines behind it, never on those before.
-/
namespace CallManual.Page
open Text

variable {a b before body header footer page : Text} {ls : List Text} {limit : ℕ}

theorem linesBeforeDescription_append (ha : Lacks descriptionHeader a) (b : Text) :
    linesBeforeDescription (a ++ b) =
      lines (removeOverstrike a) ++ linesBeforeDescription b := by
  rw [linesBeforeDescription, lines_removeOverstrike_append ha.whole,
    List.takeWhile_append_of_pos (by simpa using ha.lacks), linesBeforeDescription]

@[simp] theorem linesBeforeDescription_nil : linesBeforeDescription [] = [] := rfl

theorem linesBeforeDescription_header (hfooter : IsHeader descriptionHeader footer)
    (rest : Text) : linesBeforeDescription (footer ++ '\n' :: rest) = [] := by
  have hname : trimEnd (chopReturn (removeOverstrike footer)) = descriptionHeader := by
    rw [trimEnd_chopReturn, hfooter.2]
  rw [linesBeforeDescription, removeOverstrike_append_break, lines_line_append hfooter.unbroken]
  simp [hname]

theorem lacks_nil (header : Text) : Lacks header [] := ⟨Or.inl rfl, by simp [removeOverstrike]⟩

theorem isHeader_synopsisHeader : IsHeader synopsisHeader synopsisHeader :=
  ⟨by decide, by decide⟩

/-- What stands before and behind the two headers is not part of the synopsis. -/
theorem synopsis_between (hbefore : Lacks synopsisHeader before)
    (hheader : IsHeader synopsisHeader header) (hbody : Lacks descriptionHeader body)
    (hfooter : IsHeader descriptionHeader footer) (after : Text) (limit : ℕ) :
    synopsis (before ++ (header ++ '\n' :: (body ++ (footer ++ '\n' :: after)))) limit =
      synopsis (synopsisHeader ++ '\n' :: body) limit := by
  have hlong := synopsisBlock_of_header hbefore hheader (body ++ (footer ++ '\n' :: after))
  have hshort := synopsisBlock_of_header (lacks_nil synopsisHeader) isHeader_synopsisHeader body
  have hbare := linesBeforeDescription_append hbody []
  rw [linesBeforeDescription_append hbody, linesBeforeDescription_header hfooter] at hlong
  rw [List.append_nil, linesBeforeDescription_nil] at hbare
  rw [List.nil_append, hbare] at hshort
  simp only [synopsis, hlong, hshort]

theorem marked_eq_false_iff : marked ls = false ↔ ∀ l ∈ ls, ¬ unimplementedMarker <:+: l := by
  simp only [marked, List.any_eq_false, contains_iff]

theorem synopsis_eq_unimplemented_iff (page : Text) (limit : ℕ) :
    synopsis page limit = .unimplemented ↔
      ∃ l ∈ synopsisBlock (removeOverstrike page), unimplementedMarker <:+: l := by
  simp [synopsis, marked, contains_iff]

theorem synopsis_eq_declarations_iff : synopsis page limit = .declarations ls ↔
    (∀ l ∈ synopsisBlock (removeOverstrike page), ¬ unimplementedMarker <:+: l) ∧
      declarationsFrom limit (synopsisBlock (removeOverstrike page)) = ls := by
  rw [← marked_eq_false_iff]
  cases h : marked (synopsisBlock (removeOverstrike page)) <;> simp [synopsis, h]

/-- Lines in front add at most a declaration each and take none away: a line looks only ahead. -/
theorem exists_declarationsFrom_append (limit : ℕ) (front ls : List Text) :
    ∃ ds, ds.length ≤ front.length ∧
      declarationsFrom limit (front ++ ls) = ds ++ declarationsFrom limit ls := by
  induction front with
  | nil => exact ⟨[], Nat.le_refl 0, rfl⟩
  | cons l front ih =>
    obtain ⟨ds, hlength, hds⟩ := ih
    refine ⟨(declarationAt? limit l (front ++ ls)).toList ++ ds, ?_, ?_⟩
    · have hone : (declarationAt? limit l (front ++ ls)).toList.length ≤ 1 := by
        cases declarationAt? limit l (front ++ ls) <;> simp
      rw [List.length_append, List.length_cons]
      omega
    · rw [List.cons_append, declarationsFrom, hds, List.append_assoc]

theorem exists_synopsis_append (ha : Lacks descriptionHeader a)
    (hmark : ∀ l ∈ lines (removeOverstrike a), ¬ unimplementedMarker <:+: l)
    (h : synopsis (synopsisHeader ++ '\n' :: b) limit = .declarations ls) :
    ∃ ds, ds.length ≤ (lines a).length ∧
      synopsis (synopsisHeader ++ '\n' :: (a ++ b)) limit = .declarations (ds ++ ls) := by
  have hblock (t : Text) : synopsisBlock (removeOverstrike (synopsisHeader ++ '\n' :: t)) =
      linesBeforeDescription t :=
    synopsisBlock_of_header (lacks_nil synopsisHeader) isHeader_synopsisHeader t
  obtain ⟨ds, hlength, hds⟩ := exists_declarationsFrom_append limit (lines (removeOverstrike a))
    (linesBeforeDescription b)
  refine ⟨ds, length_lines_removeOverstrike ha.whole ▸ hlength, ?_⟩
  rw [synopsis_eq_declarations_iff, hblock] at h ⊢
  rw [linesBeforeDescription_append ha, List.forall_mem_append, hds, h.2]
  exact ⟨⟨hmark, h.1⟩, rfl⟩

end CallManual.Page
