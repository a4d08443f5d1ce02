import CallManual.Proofs.Page.Block
import CallManual.Resolution.Classify

/-!
# Overstruck pages

A formatter strikes other characters at the place of a character before it writes the character
itself: the same one for bold, an underscore to underline. However a page is overstruck, its plain
text is found again, and with it the declarations and the resolutions of the page.
-/
namespace CallManual.Page

variable {a b page s t : Text}

/-- A page is a plain text with struck characters, each with a backspace behind it, in front of any
of its characters and at its end. A line feed cannot be struck. -/
inductive Overstrikes : Text → Text → Prop
  | nil : Overstrikes [] []
  | plain {c : Char} {page t : Text} (hc : c ≠ backspace) (h : Overstrikes page t) :
      Overstrikes (c :: page) (c :: t)
  | strike {c : Char} {page t : Text} (hc : c ≠ backspace) (hbreak : c ≠ '\n')
      (h : Overstrikes page t) : Overstrikes (c :: backspace :: page) t

/-- A place on an overstruck page never starts with a backspace. -/
theorem Overstrikes.head?_ne (h : Overstrikes page t) : page.head? ≠ some backspace := by
  cases h with
  | nil => simp
  | plain hc h => simpa using hc
  | strike hc hbreak h => simpa using hc

theorem removeOverstrike_of_overstrikes (h : Overstrikes page t) : removeOverstrike page = t := by
  induction h with
  | nil => rfl
  | plain hc h ih => rw [removeOverstrike_cons h.head?_ne, ih]
  | strike hc hbreak h ih => rw [removeOverstrike, if_pos (by simp [hbreak]), ih]

theorem overstrikes_self (h : backspace ∉ t) : Overstrikes t t := by
  induction t with
  | nil => exact .nil
  | cons c t ih =>
    rw [List.mem_cons, not_or] at h
    exact .plain (Ne.symm h.1) (ih h.2)

theorem Overstrikes.backspace_notMem (h : Overstrikes page t) : backspace ∉ t := by
  induction h with
  | nil => simp
  | plain hc h ih => simpa using ⟨Ne.symm hc, ih⟩
  | strike hc hbreak h ih => exact ih

theorem Overstrikes.append (h : Overstrikes a s) (h' : Overstrikes b t) :
    Overstrikes (a ++ b) (s ++ t) := by
  induction h with
  | nil => exact h'
  | plain hc h ih => exact .plain hc ih
  | strike hc hbreak h ih => exact .strike hc hbreak ih

/-- Each character with one struck at its place: itself in bold text, an underscore in underlined
text. -/
def struck (strike : Char → Char) (t : Text) : Text := t.flatMap fun c => [strike c, backspace, c]

theorem overstrikes_struck {strike : Char → Char} (ht : backspace ∉ t)
    (hstrike : ∀ c ∈ t, strike c ≠ backspace ∧ strike c ≠ '\n') :
    Overstrikes (struck strike t) t := by
  induction t with
  | nil => exact .nil
  | cons c t ih =>
    rw [List.mem_cons, not_or] at ht
    rw [List.forall_mem_cons] at hstrike
    exact .strike hstrike.1.1 hstrike.1.2 (.plain (Ne.symm ht.1) (ih ht.2 hstrike.2))

theorem synopsis_of_overstrikes (h : Overstrikes page t) (limit : ℕ) :
    synopsis page limit = synopsis t limit := by
  have hself := overstrikes_self h.backspace_notMem
  simp only [synopsis, removeOverstrike_of_overstrikes h, removeOverstrike_of_overstrikes hself]

end CallManual.Page

namespace CallManual.Resolution
open Page

variable {page t : Text}

/-- However a page is overstruck, its plain text is found again and it says the same about every
call. -/
theorem classify_of_overstrikes (h : Overstrikes page t) :
    removeOverstrike page = t ∧ (∀ limit, synopsis page limit = synopsis t limit) ∧
      ∀ callName limit, classify callName (some page) limit = classify callName (some t) limit := by
  refine ⟨removeOverstrike_of_overstrikes h, synopsis_of_overstrikes h, fun callName limit => ?_⟩
  rw [classify, classify, synopsis_of_overstrikes h]

/-- A bold header, a character at the start of a line that is bold and underlined, and a tail that is
underlined with its spaces. -/
theorem classify_of_bold_header :
    let plain : Text := "SYNOPSIS\nint f(int a);\n"
    let page : Text := struck id "SYNOPSIS" ++ '\n' :: 'i' :: backspace :: '_' :: backspace ::
      ("int ".toList ++ (struck (fun _ => '_') "f(int a);" ++ ['\n']))
    Overstrikes page plain ∧ removeOverstrike page = plain ∧
      classify "f" (some page) 3 =
        .ok ⟨"f", .found ⟨"int", "f", [.object { baseType := "int", name := "a" }]⟩⟩ := by
  intro plain page
  have htail : Overstrikes (struck (fun _ => '_') "f(int a);" ++ ['\n']) ("f(int a);" ++ ['\n']) :=
    (overstrikes_struck (by decide) (by decide)).append (overstrikes_self (by decide))
  have hline : Overstrikes
      ('i' :: backspace :: '_' :: backspace ::
        ("int ".toList ++ (struck (fun _ => '_') "f(int a);" ++ ['\n'])))
      ("int ".toList ++ ("f(int a);" ++ ['\n'])) :=
    .strike (by decide) (by decide)
      (.strike (by decide) (by decide) ((overstrikes_self (by decide)).append htail))
  have hpage : Overstrikes page plain :=
    (overstrikes_struck (by decide) (by decide)).append (.plain (by decide) hline)
  obtain ⟨hplain, -, hclassify⟩ := classify_of_overstrikes hpage
  exact ⟨hpage, hplain, (hclassify "f" 3).trans rfl⟩

end CallManual.Resolution
