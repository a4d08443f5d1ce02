import CallManual.Proofs.Declaration.Reading
import CallManual.Proofs.Parameter.RoundTrip

/-!
# The grammar of a parameter list

Respacing leaves one text for each parameter. It is accepted when it is the variadic marker, when
it is closed and has the declarator of a function pointer, or when it is made of the words of an
object with its keywords in written order. Words that are in another order are read, but they are
written back differently, and the parameter is refused for that.
-/
namespace CallManual.Declaration
open Text Parameter ObjectParameter
open Qualifier (InOrder)

variable {raw t d : Text} {f : TypeWords} {o : ObjectParameter} {p : Parameter}

theorem parseParameter_eq_notWrittenBack_iff {token rendered : Text} :
    parseParameter raw = .error (.notWrittenBack token rendered) ↔
      ∃ p, Parameter.parse (respace raw) = .ok p ∧ p.render ≠ respace raw ∧
        token = respace raw ∧ rendered = p.render := by
  rw [parseParameter]
  cases h : Parameter.parse (respace raw) with
  | error e => simp
  | ok q =>
    by_cases hq : q.render = respace raw
    · simp [hq]
    · simp only [hq, if_false, Except.error.injEq, DeclarationError.notWrittenBack.injEq,
        Except.ok.injEq, exists_eq_left', ne_eq, not_false_eq_true, true_and]
      exact ⟨fun h => ⟨h.1.symm, h.2.symm⟩, fun h => ⟨h.1.symm, h.2.symm⟩⟩

/-- A respaced text is its words with single spaces between them. -/
theorem unwords_words_eq_self (ht : respace t = t) : unwords (words t) = t := by
  rw [← ht, words_respace, ← respace_eq]

/-- What the words of an object parameter say about it: its keywords, its base type, whether the
pointer is constant, and the star, the name and the brackets of the declarator. -/
structure Describes (f : TypeWords) (d : Text) (o : ObjectParameter) : Prop where
  qualifiers : ∀ q, o.qualifiers.has q = true ↔ q ∈ f.qualifiers
  baseType : o.baseType = f.baseType
  constPointer : o.constPointer = f.constPointer
  pointer : o.pointer = true ↔ d.head? = some '*'
  array : o.array = true ↔ brackets <:+ unstarred d
  name : d = (if o.pointer then ['*'] else []) ++ o.name ++ if o.array then brackets else []

theorem describes_ofParts (f : TypeWords) (d : Text) :
    Describes f d (ofParts (f.typeAfter {}) d) where
  qualifiers q := by
    show (Qualifiers.insertAll {} f.qualifiers).has q = true ↔ _
    simp [Qualifiers.has_insertAll, Qualifiers.has_empty]
  baseType := rfl
  constPointer := rfl
  pointer := pointer_ofParts _ d
  array := array_ofParts _ d
  name := (declarator_ofParts _ d).symm

/-- Words describe one parameter only. -/
theorem Describes.unique {o' : ObjectParameter} (h : Describes f d o) (h' : Describes f d o') :
    o = o' := by
  have hpointer : o.pointer = o'.pointer := Bool.eq_iff_iff.mpr (h.pointer.trans h'.pointer.symm)
  have harray : o.array = o'.array := Bool.eq_iff_iff.mpr (h.array.trans h'.array.symm)
  have hname := h.name.symm.trans h'.name
  rw [hpointer, harray, List.append_cancel_right_eq, List.append_cancel_left_eq] at hname
  have hqualifiers : o.qualifiers = o'.qualifiers := Qualifiers.ext_has fun q =>
    Bool.eq_iff_iff.mpr ((h.qualifiers q).trans (h'.qualifiers q).symm)
  have hbase := h.baseType.trans h'.baseType.symm
  have hmark := h.constPointer.trans h'.constPointer.symm
  obtain ⟨base, name, qualifiers, pointer, mark, array⟩ := o
  simp only at *
  subst hpointer harray hname hqualifiers hbase hmark
  rfl

/-- The respaced texts that are accepted as parameters, each with its parameter. -/
inductive Accepts : Text → Parameter → Prop
  | variadic : Accepts ellipsis .variadic
  | callback {front args : Text} (closed : (front ++ (callbackMark ++ args)).getLast? = some ')')
      (first : ¬ callbackMark <:+: front) :
      Accepts (front ++ (callbackMark ++ args)) (.callback front ('(' :: '*' :: args))
  | object {t d : Text} {f : TypeWords} {o : ObjectParameter} (unclosed : t.getLast? ≠ some ')')
      (spells : Spells f d t) (ordered : InOrder f.qualifiers) (describes : Describes f d o) :
      Accepts t (.object o)

theorem toList_sorted_eq_iff (f : TypeWords) :
    f.sorted.toList = f.toList ↔ InOrder f.qualifiers := by
  show f.sorted.qualifiers.map Qualifier.word ++ f.baseType :: f.mark =
    f.qualifiers.map Qualifier.word ++ f.baseType :: f.mark ↔ _
  rw [List.append_cancel_right_eq, Qualifier.word_injective.list_map.eq_iff]
  exact Qualifiers.toList_insertAll_eq_iff

/-- An object is written back as it stands exactly when its keywords are in written order. -/
theorem render_eq_iff_inOrder (ht : respace t = t) (h : Spells f d t) :
    (ofParts (f.typeAfter {}) d).render = t ↔ InOrder f.qualifiers := by
  constructor
  · intro hback
    have hsame := h.render.2.spelled
    rw [hback, h.spelled] at hsame
    exact (toList_sorted_eq_iff f).mp (List.append_cancel_right hsame).symm
  · intro hordered
    rw [render_ofParts, (toList_sorted_eq_iff f).mpr hordered, ← h.spelled,
      unwords_words_eq_self ht]

/-- In a respaced text no white space stands beside the space of a declarator. -/
theorem trim_front_eq {front args : Text} (h : Spaced (front ++ (callbackMark ++ args))) :
    trim front ≠ [] ∧ trim front = front := by
  obtain ⟨⟨hne, hfront⟩, -⟩ := h.of_append_blank isBlank_space
  rw [trim_eq_self hfront.tight]
  exact ⟨hne, rfl⟩

theorem accepts_iff (ht : respace t = t) : Accepts t p ↔ Denotes t p ∧ p.render = t := by
  have hspaced : Spaced t := ht ▸ spaced_respace t
  constructor
  · intro h
    cases h with
    | variadic => exact ⟨.variadic, rfl⟩
    | callback closed first =>
      obtain ⟨htyped, htrim⟩ := trim_front_eq hspaced
      have h := Denotes.callback closed first htyped
      rw [htrim] at h
      exact ⟨h, rfl⟩
    | @object t d f o unclosed spells ordered describes =>
      obtain rfl := describes.unique (describes_ofParts f d)
      exact ⟨.object unclosed hspaced.tight.2 spells, (render_eq_iff_inOrder ht spells).mpr ordered⟩
  · rintro ⟨h, hback⟩
    cases h with
    | variadic => exact .variadic
    | callback closed first typed =>
      rw [(trim_front_eq hspaced).2]
      exact .callback closed first
    | @object f d t unclosed ended spells =>
      exact .object unclosed spells ((render_eq_iff_inOrder ht spells).mp hback)
        (describes_ofParts f d)

/-- The texts that some parameter is accepted from. -/
def Fits (t : Text) : Prop :=
  t = ellipsis ∨ (t.getLast? = some ')' ∧ callbackMark <:+: t) ∨
    (t.getLast? ≠ some ')' ∧ ∃ f d, Spells f d t ∧ InOrder f.qualifiers)

theorem exists_accepts_iff : (∃ p, Accepts t p) ↔ Fits t := by
  constructor
  · rintro ⟨p, h⟩
    cases h with
    | variadic => exact Or.inl rfl
    | @callback front args closed first =>
      exact Or.inr (Or.inl ⟨closed, front, args, List.append_assoc ..⟩)
    | object unclosed spells ordered _ =>
      exact Or.inr (Or.inr ⟨unclosed, _, _, spells, ordered⟩)
  · rintro (rfl | ⟨closed, hmark⟩ | ⟨unclosed, f, d, spells, ordered⟩)
    · exact ⟨_, .variadic⟩
    · cases hcut : cutAt? callbackMark t with
      | none => exact absurd hmark (cutAt?_eq_none_iff.mp hcut)
      | some sides =>
        obtain ⟨front, rest⟩ := sides
        obtain ⟨rfl, ⟨args, rfl⟩, hfirst⟩ := (cutAt?_eq_some_iff unbordered_callbackMark).mp hcut
        exact ⟨_, .callback closed hfirst⟩
    · exact ⟨_, .object unclosed spells ordered (describes_ofParts f d)⟩

theorem parseParameter_eq_ok_iff_accepts : parseParameter raw = .ok p ↔ Accepts (respace raw) p := by
  rw [parseParameter_eq_ok_iff, Parameter.parse_eq_ok_iff, accepts_iff (respace_respace raw)]

theorem exists_parseParameter_iff : (∃ p, parseParameter raw = .ok p) ↔ Fits (respace raw) := by
  simp only [parseParameter_eq_ok_iff_accepts, exists_accepts_iff]

theorem exists_denotes_ne_iff (ht : respace t = t) : (∃ p, Denotes t p ∧ p.render ≠ t) ↔
    t.getLast? ≠ some ')' ∧ ∃ f d, Spells f d t ∧ ¬ InOrder f.qualifiers := by
  have hspaced : Spaced t := ht ▸ spaced_respace t
  constructor
  · rintro ⟨p, h, hne⟩
    cases h with
    | variadic => exact absurd rfl hne
    | callback closed first typed =>
      rw [(trim_front_eq hspaced).2] at hne
      exact absurd rfl hne
    | object unclosed ended spells =>
      exact ⟨unclosed, _, _, spells, mt (render_eq_iff_inOrder ht spells).mpr hne⟩
  · rintro ⟨unclosed, f, d, spells, hordered⟩
    exact ⟨_, .object unclosed hspaced.tight.2 spells,
      mt (render_eq_iff_inOrder ht spells).mp hordered⟩

/-- A piece of a parameter list is accepted exactly when it is respaced to the variadic marker, to a
closed text with the declarator of a function pointer, or to the words of an object parameter with
its keywords in written order; the parameter is what the text says. Words with keywords repeated or
out of order, and only these, are refused because they are not written back. -/
theorem parseParameter_grammar (raw : Text) :
    ((∃ p, parseParameter raw = .ok p) ↔ respace raw = ellipsis ∨
      ((respace raw).getLast? = some ')' ∧ callbackMark <:+: respace raw) ∨
      ((respace raw).getLast? ≠ some ')' ∧
        ∃ f d, Spells f d (respace raw) ∧ InOrder f.qualifiers)) ∧
    (∀ p, parseParameter raw = .ok p ↔ Accepts (respace raw) p) ∧
    ((∃ token rendered, parseParameter raw = .error (.notWrittenBack token rendered)) ↔
      (respace raw).getLast? ≠ some ')' ∧
        ∃ f d, Spells f d (respace raw) ∧ ¬ InOrder f.qualifiers) := by
  refine ⟨exists_parseParameter_iff, fun p => parseParameter_eq_ok_iff_accepts, ?_⟩
  simp only [parseParameter_eq_notWrittenBack_iff, Parameter.parse_eq_ok_iff]
  rw [← exists_denotes_ne_iff (respace_respace raw)]
  constructor
  · rintro ⟨-, -, p, h, hne, -, -⟩
    exact ⟨p, h, hne⟩
  · rintro ⟨p, h, hne⟩
    exact ⟨_, _, p, h, hne, rfl, rfl⟩

/-- A keyword out of order; the star that stands alone is glued before the words are compared. -/
example : parseParameter "struct const  s * p" =
    .error (.notWrittenBack "struct const s *p" "const struct s *p") := rfl

end CallManual.Declaration
