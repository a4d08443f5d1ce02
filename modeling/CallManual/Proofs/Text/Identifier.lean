import CallManual.Proofs.Text.Trim
import CallManual.Text.Identifier

/-!
# The characters of identifiers

An identifier is a letter or underscore with letters, digits and underscores behind it. None of its
characters is white space or a mark, and all digits of hexadecimal numbers may stand in it.
-/
namespace CallManual.Text

variable {c : Char} {n : Text}

/-- A letter or underscore, then letters, digits and underscores. -/
def IsName (n : Text) : Prop :=
  ∃ c rest, n = c :: rest ∧ (c = '_' ∨ c.isAlpha = true) ∧
    ∀ x ∈ rest, x = '_' ∨ x.isAlphanum = true

theorem isLetter_eq_isAlpha (c : Char) : isLetter c = c.isAlpha := by
  have hupper : c.isUpper = (decide ('A' ≤ c) && decide (c ≤ 'Z')) := Bool.decide_and _ _
  have hlower : c.isLower = (decide ('a' ≤ c) && decide (c ≤ 'z')) := rfl
  have halpha : c.isAlpha = (c.isUpper || c.isLower) := rfl
  rw [halpha, hupper, hlower, isLetter, Bool.or_comm]

theorem isIdentifier_iff_isName : isIdentifier n = true ↔ IsName n := by
  cases n with
  | nil => simp [isIdentifier, IsName]
  | cons c rest =>
    have hdigit : ∀ x, isDigit x = x.isDigit := fun _ => rfl
    simp [isIdentifier, IsName, startsIdentifier, inIdentifier, isLetter_eq_isAlpha, hdigit,
      Char.isAlphanum, or_assoc]

instance : DecidablePred IsName := fun _ => decidable_of_iff _ isIdentifier_iff_isName

theorem inIdentifier_of_isIdentifier (h : isIdentifier n = true) :
    ∀ c ∈ n, inIdentifier c = true := by
  cases n with
  | nil => simp
  | cons c rest =>
    simp only [isIdentifier, Bool.and_eq_true, List.all_eq_true] at h
    exact List.forall_mem_cons.mpr ⟨by simp [inIdentifier, h.1], h.2⟩

theorem notMem_of_isIdentifier (h : isIdentifier n = true) (hc : inIdentifier c = false) :
    c ∉ n := by
  intro hmem
  rw [inIdentifier_of_isIdentifier h c hmem] at hc
  cases hc

theorem IsName.exists_cons (h : IsName n) :
    ∃ c rest, n = c :: rest ∧ inIdentifier c = true := by
  have hin := inIdentifier_of_isIdentifier (isIdentifier_iff_isName.mpr h)
  obtain ⟨c, rest, rfl, -⟩ := h
  exact ⟨c, rest, rfl, hin c (by simp)⟩

theorem toNat_of_inIdentifier (h : inIdentifier c = true) : 48 ≤ c.toNat ∧ c.toNat ≤ 122 := by
  simp only [inIdentifier, startsIdentifier, isLetter, isDigit, Bool.or_eq_true, beq_iff_eq,
    Bool.and_eq_true, decide_eq_true_eq, Char.le_def, UInt32.le_iff_toNat_le, Char.toNat_val,
    Char.reduceToNat] at h
  rcases h with (rfl | h | h) | h
  · decide
  all_goals omega

/-- White space has no part in names. -/
theorem isBlank_of_inIdentifier (h : inIdentifier c = true) : isBlank c = false := by
  have hbounds := toNat_of_inIdentifier h
  simp only [isBlank, Bool.or_eq_false_iff, Bool.and_eq_false_iff, decide_eq_false_iff_not,
    beq_eq_false_iff_ne]
  omega

theorem inIdentifier_of_isHexDigit (h : isHexDigit c = true) : inIdentifier c = true := by
  simp only [isHexDigit, inIdentifier, startsIdentifier, isLetter, isDigit, Bool.or_eq_true,
    Bool.and_eq_true, decide_eq_true_eq, Char.le_def, UInt32.le_iff_toNat_le, Char.toNat_val,
    Char.reduceToNat] at h ⊢
  omega

theorem isHexDigit_of_isBlank (h : isBlank c = true) : isHexDigit c = false := by
  by_contra hhex
  rw [Bool.not_eq_false] at hhex
  simp [isBlank_of_inIdentifier (inIdentifier_of_isHexDigit hhex)] at h

end CallManual.Text
