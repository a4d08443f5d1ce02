import CallManual.Proofs.Parameter.Reading

/-!
# Writing a parameter that was read

A function pointer is written with its declarator one space behind its return type. An object is
written with the words that were read, each keyword once and in written order. Either way the text
has the shape it was read from, so it reads as the same parameter.
-/
namespace CallManual
open Text

variable {f : TypeWords} {d t front args : Text} {p : Parameter}

namespace TypeWords

/-- The words with each keyword once, in written order. -/
def sorted (f : TypeWords) : TypeWords :=
  { f with qualifiers := (Qualifiers.insertAll {} f.qualifiers).toList }

theorem typeAfter_sorted (f : TypeWords) : f.sorted.typeAfter {} = f.typeAfter {} := by
  simp only [typeAfter, sorted, Qualifiers.insertAll_toList]

theorem isWord_sorted (h : ∀ w ∈ f.toList, IsWord w) : ∀ w ∈ f.sorted.toList, IsWord w := by
  intro w hw
  rcases List.mem_append.mp hw with hw | hw
  · obtain ⟨q, -, rfl⟩ := List.mem_map.mp hw
    exact q.isWord_word
  · exact h w (List.mem_append_right _ hw)

end TypeWords

namespace Parameter
open ObjectParameter (ofParts declarator_ofParts)

theorem render_ofParts (f : TypeWords) (d : Text) :
    (ofParts (f.typeAfter {}) d).render = unwords (f.sorted.toList ++ [d]) := by
  rw [ObjectParameter.render, declarator_ofParts]
  rfl

theorem Spells.isWord (h : Spells f d t) : (∀ w ∈ f.toList, IsWord w) ∧ IsWord d := by
  have hword : ∀ w ∈ f.toList ++ [d], IsWord w := fun w hw => isWord_of_mem_words (h.spelled ▸ hw)
  exact ⟨fun w hw => hword w (List.mem_append_left _ hw), hword d (by simp)⟩

/-- A text and its declarator end in the same character. -/
theorem Spells.getLast?_eq (h : Spells f d t) (hend : ∀ c ∈ t.getLast?, isBlank c = false) :
    t.getLast? = d.getLast? := by
  obtain ⟨front, c, rfl, -, hd, -⟩ := exists_of_words h.spelled f.toList_ne_nil hend
  rw [List.getLast?_append_cons, List.getLast?_cons_of_ne_nil hd.1]

/-- What is written for an object has the words that were read, but for the order of keywords. -/
theorem Spells.render (h : Spells f d t) : Spaced (ofParts (f.typeAfter {}) d).render ∧
    Spells f.sorted d (ofParts (f.typeAfter {}) d).render := by
  obtain ⟨hwords, hd⟩ := h.isWord
  have hsorted : ∀ w ∈ f.sorted.toList ++ [d], IsWord w :=
    List.forall_mem_append.mpr ⟨TypeWords.isWord_sorted hwords, by simpa using hd⟩
  rw [render_ofParts]
  exact ⟨spaced_unwords hsorted, words_unwords hsorted, h.admits⟩

theorem Denotes.render (h : Denotes t p) : Denotes p.render p := by
  cases h with
  | variadic => exact .variadic
  | @callback front args closed first typed =>
    have hfirst : ¬ callbackMark <:+: trim front := fun hm => first (hm.trans (trim_isInfix front))
    have hclosed : (trim front ++ (callbackMark ++ args)).getLast? = some ')' := by
      rw [List.getLast?_append_of_ne_nil _ (by simp [callbackMark])] at closed ⊢
      exact closed
    have htrim : trim (trim front) = trim front := trim_eq_self (tight_trim front)
    have h := Denotes.callback hclosed hfirst (by rwa [htrim])
    rwa [htrim] at h
  | @object f d t unclosed ended spells =>
    obtain ⟨hspaced, hrender⟩ := spells.render
    have hend := hspaced.tight.2
    have hunclosed : (ofParts (f.typeAfter {}) d).render.getLast? ≠ some ')' := by
      rwa [hrender.getLast?_eq hend, ← spells.getLast?_eq ended]
    have h := Denotes.object hunclosed hend hrender
    rwa [f.typeAfter_sorted] at h

/-- Reading finds a parameter again in what is written for it, whatever text it was read from. -/
theorem parse_render_of_parse (h : parse t = .ok p) : parse p.render = .ok p :=
  parse_eq_ok_iff.mpr (parse_eq_ok_iff.mp h).render

/-- Keywords out of order and repeated, white space of all kinds and a base type that is a keyword;
a declarator of a function pointer with a blank in front of it. -/
theorem parse_render_of_unusual_texts :
    let o : ObjectParameter :=
      { baseType := "const", name := "p", pointer := true, array := true,
        qualifiers := { const := true, unsigned := true } }
    let g : Parameter := .callback "const\tchar  *" "(*f)( int (*g)(void) )"
    (parse " unsigned const\tunsigned\u00a0const *p[]" = .ok (.object o) ∧
      parse (render (.object o)) = .ok (.object o)) ∧
    parse "\nconst\tchar  * \t (*f)( int (*g)(void) )" = .ok g ∧ parse g.render = .ok g := by
  intro o g
  have ho : parse " unsigned const\tunsigned\u00a0const *p[]" = .ok (.object o) := rfl
  have hg : parse "\nconst\tchar  * \t (*f)( int (*g)(void) )" = .ok g := rfl
  exact ⟨⟨ho, parse_render_of_parse ho⟩, hg, parse_render_of_parse hg⟩

end Parameter
end CallManual
