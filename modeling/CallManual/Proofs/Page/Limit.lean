import CallManual.Proofs.Page.Context
import CallManual.Proofs.Page.Joining

/-!
# How many lines are joined

Joining ends at a semicolon, behind the last line of the block, or at the limit. A greater limit
changes only what ended at the limit, and that is no declaration. So it adds declarations and leaves
those that were there, and it adds nothing once the whole block may be joined.
-/
namespace CallManual.Page
open Text

variable {line page t : Text} {ls rest : List Text} {j k : ℕ}

/-- What ended at a semicolon or behind the last line stays as it is with a greater limit. -/
theorem joinLines_of_le (hle : j ≤ k)
    (h : endsInSemicolon (joinLines j line rest) = true ∨ rest.length ≤ j) :
    joinLines k line rest = joinLines j line rest := by
  induction j generalizing k line rest with
  | zero =>
    rw [joinLines] at h ⊢
    rcases h with h | h
    · exact joinLines_of_endsInSemicolon h k rest
    · obtain rfl : rest = [] := List.eq_nil_of_length_eq_zero (by omega)
      exact joinLines_nil k line
  | succ j ih =>
    obtain ⟨k, rfl⟩ : ∃ i, k = i + 1 := ⟨k - 1, by omega⟩
    cases rest with
    | nil => rfl
    | cons next rest =>
      cases hends : endsInSemicolon line with
      | true => rw [joinLines_of_endsInSemicolon hends, joinLines_of_endsInSemicolon hends]
      | false =>
        rw [joinLines_cons hends] at h ⊢
        rw [joinLines_cons hends]
        exact ih (by omega) (h.imp_right fun hlength => by simpa using hlength)

theorem endsInSemicolon_of_isSuffix (h : [')', ';'] <:+ t) : endsInSemicolon t = true := by
  obtain ⟨s, rfl⟩ := h
  simp [endsInSemicolon]

theorem declarationAt?_of_le (hle : j ≤ k) (h : declarationAt? j line rest = some t) :
    declarationAt? k line rest = some t := by
  obtain ⟨htype, hstart, hjoin, hlook, hclosed⟩ := declarationAt?_eq_some_iff.mp h
  have hends : endsInSemicolon (joinLines j (stripComment (trim line)) rest) = true :=
    hjoin ▸ endsInSemicolon_of_isSuffix hclosed
  have hsame := joinLines_of_le hle (Or.inl hends)
  exact declarationAt?_eq_some_iff.mpr ⟨htype, hstart, hsame.trans hjoin, hlook, hclosed⟩

theorem declarationAt?_of_length_le (hle : j ≤ k) (hlength : rest.length ≤ j) (line : Text) :
    declarationAt? k line rest = declarationAt? j line rest := by
  simp only [declarationAt?, joinLines_of_le hle (Or.inr hlength)]

theorem declarationsFrom_sublist (hle : j ≤ k) (ls : List Text) :
    (declarationsFrom j ls).Sublist (declarationsFrom k ls) := by
  induction ls with
  | nil => exact List.Sublist.refl []
  | cons line rest ih =>
    refine List.Sublist.append ?_ ih
    cases h : declarationAt? j line rest with
    | none => exact List.nil_sublist _
    | some t => rw [declarationAt?_of_le hle h]

theorem declarationsFrom_of_length_le (hle : j ≤ k) (hlength : ls.length ≤ j) :
    declarationsFrom k ls = declarationsFrom j ls := by
  induction ls with
  | nil => rfl
  | cons line rest ih =>
    have hrest : rest.length ≤ j := Nat.le_of_succ_le hlength
    rw [declarationsFrom, declarationsFrom, declarationAt?_of_length_le hle hrest, ih hrest]

/-- Whether a page is unimplemented is up to the lines of its block and not to the limit. With a
greater limit the declarations of a page stay, in their order, among those it has then. Nothing is
added once the limit is the number of lines in the block. -/
theorem synopsis_of_le (page : Text) (hle : j ≤ k) :
    (synopsis page j = .unimplemented ↔ synopsis page k = .unimplemented) ∧
    (synopsis page j = .unimplemented ↔
      ∃ l ∈ synopsisBlock (removeOverstrike page), unimplementedMarker <:+: l) ∧
    ∀ ds, synopsis page j = .declarations ds →
      ∃ es, synopsis page k = .declarations es ∧ ds.Sublist es ∧
        ((synopsisBlock (removeOverstrike page)).length ≤ j → es = ds) := by
  refine ⟨?_, synopsis_eq_unimplemented_iff page j, fun ds h => ?_⟩
  · rw [synopsis_eq_unimplemented_iff, synopsis_eq_unimplemented_iff]
  · obtain ⟨hmark, rfl⟩ := synopsis_eq_declarations_iff.mp h
    exact ⟨_, synopsis_eq_declarations_iff.mpr ⟨hmark, rfl⟩, declarationsFrom_sublist hle _,
      declarationsFrom_of_length_le hle⟩

/-- One line may be joined to the second line of the block but not two to the first. All that can be
found is found with the number of lines in the block. -/
theorem synopsis_of_le_of_open_lines :
    let page : Text := "SYNOPSIS\n int f(int a,\n long g(int b,\n int c);\n int h(void);\n"
    let ds : List Text := ["long g(int b, int c);", "int h(void);"]
    let es : List Text := "int f(int a, long g(int b, int c);".toList :: ds
    (synopsis page 1 = .declarations ds ∧
        ∃ fs, synopsis page 4 = .declarations fs ∧ ds.Sublist fs) ∧
      synopsis page 4 = .declarations es ∧ synopsis page 9 = .declarations es := by
  intro page ds es
  have hds : synopsis page 1 = .declarations ds := by decide
  have hes : synopsis page 4 = .declarations es := by decide
  obtain ⟨-, -, hmore⟩ := synopsis_of_le page (show 1 ≤ 4 by decide)
  obtain ⟨-, -, hall⟩ := synopsis_of_le page (show 4 ≤ 9 by decide)
  obtain ⟨fs, hfs, hsub, -⟩ := hmore ds hds
  obtain ⟨gs, hgs, -, hsame⟩ := hall es hes
  exact ⟨⟨hds, fs, hfs, hsub⟩, hes, hsame (by decide) ▸ hgs⟩

end CallManual.Page
