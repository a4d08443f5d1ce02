import CallManual.Parameter.Parser
import CallManual.Proofs.Text.Cut
import CallManual.Proofs.Text.Words
import Mathlib.Data.List.Sort

/-!
# The words of an object parameter

Qualifier keywords, a base type, at most one mark of a constant pointer and a declarator are the
words of an object parameter. Words are read as an object parameter exactly when they have this
form, and the parameter is written with the same words, but each keyword once and all of them in
written order.
-/
namespace CallManual
open Text

namespace Qualifier

/-- The place of a keyword in written order. -/
def rank (q : Qualifier) : ℕ := written.idxOf q

theorem mem_written (q : Qualifier) : q ∈ written := by
  cases q <;> decide

theorem ofWord?_word (q : Qualifier) : ofWord? q.word = some q := by
  cases q <;> decide

theorem word_eq_of_ofWord? {w : Text} {q : Qualifier} (h : ofWord? w = some q) : q.word = w := by
  simpa using List.find?_some h

theorem word_injective : Function.Injective word := by
  intro q r h
  have hword := congrArg ofWord? h
  simpa [ofWord?_word] using hword

theorem isWord_word (q : Qualifier) : IsWord q.word := by
  cases q <;> exact ⟨by decide, by decide⟩

/-- Keywords in written order, none of them twice. -/
def InOrder (qs : List Qualifier) : Prop := qs.Pairwise fun q r => q.rank < r.rank

instance : DecidablePred InOrder := fun qs =>
  inferInstanceAs (Decidable (qs.Pairwise fun q r => q.rank < r.rank))

theorem inOrder_written : InOrder written := by decide

theorem InOrder.eq_of_mem_iff {qs rs : List Qualifier} (hqs : InOrder qs) (hrs : InOrder rs)
    (h : ∀ q, q ∈ qs ↔ q ∈ rs) : qs = rs := by
  have hanti : Std.Antisymm fun q r : Qualifier => q.rank < r.rank :=
    ⟨fun q r hqr hrq => absurd hqr (Nat.lt_asymm hrq)⟩
  have hirrefl : Std.Irrefl fun q r : Qualifier => q.rank < r.rank :=
    ⟨fun q => Nat.lt_irrefl q.rank⟩
  exact List.Pairwise.eq_of_mem_iff hqs hrs h

end Qualifier

namespace Qualifiers

variable {s t : Qualifiers} {q r : Qualifier}

/-- The set with more keywords, in the order in which they are read. -/
def insertAll (s : Qualifiers) (qs : List Qualifier) : Qualifiers := qs.foldl insert s

theorem insertAll_cons (s : Qualifiers) (q : Qualifier) (qs : List Qualifier) :
    s.insertAll (q :: qs) = (s.insert q).insertAll qs := rfl

theorem has_insert : (s.insert q).has r = (s.has r || decide (r = q)) := by
  cases q <;> cases r <;> simp [insert, has]

theorem has_insertAll (s : Qualifiers) (qs : List Qualifier) :
    (s.insertAll qs).has q = (s.has q || decide (q ∈ qs)) := by
  induction qs generalizing s with
  | nil => simp [insertAll]
  | cons r qs ih =>
    rw [insertAll_cons, ih, has_insert]
    simp [Bool.or_assoc]

theorem has_empty (q : Qualifier) : ({} : Qualifiers).has q = false := by
  cases q <;> rfl

theorem ext_has (h : ∀ q, s.has q = t.has q) : s = t := by
  obtain ⟨c, u, st, un, e⟩ := s
  obtain ⟨c', u', st', un', e'⟩ := t
  obtain rfl : c = c' := h .const
  obtain rfl : u = u' := h .unsigned
  obtain rfl : st = st' := h .struct
  obtain rfl : un = un' := h .union
  obtain rfl : e = e' := h .enum
  rfl

@[simp] theorem mem_toList : q ∈ s.toList ↔ s.has q = true := by
  simp [toList, Qualifier.mem_written]

theorem inOrder_toList (s : Qualifiers) : Qualifier.InOrder s.toList :=
  Qualifier.inOrder_written.filter _

theorem insertAll_toList (s : Qualifiers) : insertAll {} s.toList = s :=
  ext_has fun q => by simp [has_insertAll, has_empty]

/-- The keywords of a set are those that were read exactly when these were in order. -/
theorem toList_insertAll_eq_iff {qs : List Qualifier} :
    (insertAll {} qs).toList = qs ↔ Qualifier.InOrder qs := by
  refine ⟨fun h => h ▸ inOrder_toList _, fun h => ?_⟩
  exact (inOrder_toList _).eq_of_mem_iff h fun q => by simp [has_insertAll, has_empty]

end Qualifiers

/-- The words in front of a declarator, in their order: keywords, a base type, and perhaps the mark
of a constant pointer. -/
structure TypeWords where
  qualifiers : List Qualifier
  baseType : Text
  constPointer : Bool := false

namespace TypeWords
open ObjectParameter

variable {f : TypeWords} {s : Qualifiers} {q : Qualifier} {type : TypePart} {w : Text}
  {ws : List Text}

def mark (f : TypeWords) : List Text := if f.constPointer then [constPointerMark] else []

def toList (f : TypeWords) : List Text := f.qualifiers.map Qualifier.word ++ f.baseType :: f.mark

/-- Only a base type that is no keyword has the mark of a constant pointer behind it. -/
def Admits (f : TypeWords) : Prop := f.constPointer = true → Qualifier.ofWord? f.baseType = none

/-- What the words say after the keywords `s`. -/
def typeAfter (f : TypeWords) (s : Qualifiers) : TypePart where
  qualifiers := s.insertAll f.qualifiers
  baseType := f.baseType
  constPointer := f.constPointer

theorem toList_ne_nil (f : TypeWords) : f.toList ≠ [] := by
  simp [toList]

theorem toList_keyword (f : TypeWords) (q : Qualifier) :
    toList { f with qualifiers := q :: f.qualifiers } = q.word :: f.toList := rfl

theorem ofWords_keyword (hq : Qualifier.ofWord? w = some q) (hws : ws ≠ []) :
    TypePart.ofWords s (w :: ws) = TypePart.ofWords (s.insert q) ws := by
  obtain ⟨v, vs, rfl⟩ := List.exists_cons_of_ne_nil hws
  rw [TypePart.ofWords, hq]
  simp

theorem ofWords_baseType (hw : Qualifier.ofWord? w = none) (hws : ws ≠ []) :
    TypePart.ofWords s (w :: ws) = if ws = [constPointerMark] then
      .ok { qualifiers := s, baseType := w, constPointer := true } else .error w := by
  obtain ⟨v, vs, rfl⟩ := List.exists_cons_of_ne_nil hws
  rw [TypePart.ofWords, hw]
  simp

theorem ofWords_toList (h : f.Admits) (s : Qualifiers) :
    TypePart.ofWords s f.toList = .ok (f.typeAfter s) := by
  obtain ⟨qs, base, pointer⟩ := f
  induction qs generalizing s with
  | nil =>
    cases pointer with
    | false => rfl
    | true => exact (ofWords_baseType (h rfl) (by simp [mark])).trans (if_pos rfl)
  | cons q qs ih =>
    rw [toList_keyword ⟨qs, base, pointer⟩ q, ofWords_keyword (Qualifier.ofWord?_word q)
      (toList_ne_nil _), ih _ h]
    rfl

/-- The words that are read as a type are keywords, a base type, and perhaps the mark. -/
theorem exists_of_ofWords (hws : ws ≠ []) (h : TypePart.ofWords s ws = .ok type) :
    ∃ f : TypeWords, f.Admits ∧ f.toList = ws ∧ f.typeAfter s = type := by
  induction ws generalizing s with
  | nil => exact absurd rfl hws
  | cons w ws ih =>
    by_cases hlast : ws = []
    · subst hlast
      cases h
      exact ⟨⟨[], w, false⟩, by simp [Admits], rfl, rfl⟩
    · cases hq : Qualifier.ofWord? w with
      | some q =>
        rw [ofWords_keyword hq hlast] at h
        obtain ⟨f, hf, rfl, rfl⟩ := ih hlast h
        refine ⟨{ f with qualifiers := q :: f.qualifiers }, hf, ?_, rfl⟩
        rw [toList_keyword, Qualifier.word_eq_of_ofWord? hq]
      | none =>
        rw [ofWords_baseType hq hlast] at h
        split at h
        · next hmark =>
          cases h
          exact ⟨⟨[], w, true⟩, fun _ => hq, by simp [toList, mark, hmark], rfl⟩
        · cases h

end TypeWords
end CallManual
