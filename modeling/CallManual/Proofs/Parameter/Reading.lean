import CallManual.Proofs.Parameter.Words
import CallManual.Proofs.Text.Cut

/-!
# What reading a parameter finds

An object is read from a text that ends in its declarator, behind the words of a type; a function
pointer from one that ends in a parenthesis, cut at its first ` (*`. What is written for a parameter
that was read has the same form again, so reading it finds the same parameter.
-/
namespace CallManual
open Text

namespace ObjectParameter
variable {type : TypePart} {d rest : Text}

def brackets : Text := ['[', ']']

/-- A declarator without the star in front of it. -/
def unstarred : Text → Text
  | '*' :: rest => rest
  | d => d

theorem unstarred_of_ne (h : d.head? ≠ some '*') : unstarred d = d := by
  unfold unstarred
  split
  · simp at h
  · rfl

theorem star_append_unstarred (d : Text) :
    (if d.head? = some '*' then ['*'] else []) ++ unstarred d = d := by
  split
  · next h =>
    obtain ⟨rest, rfl⟩ := List.head?_eq_some_iff.mp h
    rfl
  · next h => exact unstarred_of_ne h

theorem splitDeclarator_eq (d : Text) : splitDeclarator d = (decide (d.head? = some '*'),
    (dropSuffix? brackets (unstarred d)).getD (unstarred d),
      (dropSuffix? brackets (unstarred d)).isSome) := by
  unfold splitDeclarator
  split
  next pointer rest hstar =>
    have hd : pointer = decide (d.head? = some '*') ∧ rest = unstarred d := by
      split at hstar
      · cases hstar
        simp [unstarred]
      · next hne =>
        cases hstar
        have hhead : d.head? ≠ some '*' := fun h => by
          obtain ⟨s, rfl⟩ := List.head?_eq_some_iff.mp h
          exact hne s rfl
        simp [hhead, unstarred_of_ne]
    obtain ⟨rfl, rfl⟩ := hd
    cases h : dropSuffix? brackets (unstarred d) <;> rw [brackets] at h <;> rw [h] <;> rfl

theorem pointer_ofParts (type : TypePart) (d : Text) :
    (ofParts type d).pointer = true ↔ d.head? = some '*' := by
  show (splitDeclarator d).1 = true ↔ _
  rw [splitDeclarator_eq, decide_eq_true_iff]

theorem array_ofParts (type : TypePart) (d : Text) :
    (ofParts type d).array = true ↔ brackets <:+ unstarred d := by
  show (splitDeclarator d).2.2 = true ↔ _
  rw [splitDeclarator_eq, Option.isSome_iff_exists]
  simp only [dropSuffix?_eq_some_iff]
  exact exists_congr fun _ => eq_comm

/-- Taking a declarator apart loses nothing. -/
theorem declarator_ofParts (type : TypePart) (d : Text) : (ofParts type d).declarator = d := by
  have hname : (dropSuffix? brackets (unstarred d)).getD (unstarred d) ++
      (if (dropSuffix? brackets (unstarred d)).isSome then brackets else []) = unstarred d := by
    cases h : dropSuffix? brackets (unstarred d) with
    | none => simp
    | some name => exact (dropSuffix?_eq_some_iff.mp h).symm
  show (if (splitDeclarator d).1 then ['*'] else []) ++ (splitDeclarator d).2.1 ++
    (if (splitDeclarator d).2.2 then brackets else []) = d
  rw [splitDeclarator_eq, List.append_assoc, hname]
  simpa using star_append_unstarred d
end ObjectParameter

namespace Parameter
variable {t front last w : Text} {ws : List Text} {c : Char}

theorem splitName?_append (hfront : words front ≠ []) (hc : isBlank c = true) (hw : IsWord w) :
    splitName? (front ++ c :: w) = some (words front, w) := by
  rw [splitName?, cutLast?_append hc hw.2]
  simp [hfront, hw.1]

theorem exists_of_splitName? (h : splitName? t = some (ws, last)) :
    ∃ front c, t = front ++ c :: last ∧ isBlank c = true ∧ IsWord last ∧ words front = ws ∧
      ws ≠ [] := by
  unfold splitName? at h
  cases hcut : cutLast? isBlank t with
  | none => simp [hcut] at h
  | some sides =>
    obtain ⟨front, w⟩ := sides
    obtain ⟨c, hc, hw, rfl⟩ := cutLast?_eq_some_iff.mp hcut
    simp only [hcut] at h
    split at h
    · cases h
    · next hne =>
      cases h
      simp only [Bool.or_eq_true, List.isEmpty_iff, not_or] at hne
      exact ⟨front, c, rfl, hc, ⟨hne.2, hw⟩, rfl, hne.1⟩

/-- A text with more than one word that does not end in white space ends in its last word. -/
theorem exists_of_words (h : words t = ws ++ [last]) (hws : ws ≠ [])
    (hend : ∀ c ∈ t.getLast?, isBlank c = false) :
    ∃ front c, t = front ++ c :: last ∧ isBlank c = true ∧ IsWord last ∧ words front = ws := by
  have hlast : IsWord last :=
    isWord_of_mem_words (h ▸ List.mem_append_right ws (List.mem_singleton_self last))
  cases hcut : cutLast? isBlank t with
  | none =>
    have hword : IsWord t := ⟨by rintro rfl; simp at h, cutLast?_eq_none_iff.mp hcut⟩
    rw [words_word hword] at h
    have := List.length_pos_of_ne_nil hws
    have := congrArg List.length h
    simp only [List.length_append, List.length_singleton] at this
    omega
  | some sides =>
    obtain ⟨front, w⟩ := sides
    obtain ⟨c, hc, hw, rfl⟩ := cutLast?_eq_some_iff.mp hcut
    have hne : w ≠ [] := by
      rintro rfl
      simp [hc] at hend
    rw [words_append_blank front w hc, words_word ⟨hne, hw⟩, List.append_singleton_inj] at h
    obtain ⟨rfl, rfl⟩ := h
    exact ⟨front, c, rfl, hc, hlast, rfl⟩

theorem splitName?_eq_some_iff : splitName? t = some (ws, last) ↔
    ws ≠ [] ∧ words t = ws ++ [last] ∧ ∀ c ∈ t.getLast?, isBlank c = false := by
  constructor
  · intro h
    obtain ⟨front, c, rfl, hc, hlast, rfl, hws⟩ := exists_of_splitName? h
    refine ⟨hws, by rw [words_append_blank front last hc, words_word hlast], fun x hx => ?_⟩
    rw [List.getLast?_append_cons, List.getLast?_cons_of_ne_nil hlast.1] at hx
    exact hlast.2 x (List.mem_of_mem_getLast? hx)
  · rintro ⟨hws, hwords, hend⟩
    obtain ⟨front, c, rfl, hc, hlast, rfl⟩ := exists_of_words hwords hws hend
    exact splitName?_append hws hc hlast

/-- The words of a text are those of a type and a declarator behind them. -/
structure Spells (f : TypeWords) (d t : Text) : Prop where
  spelled : words t = f.toList ++ [d]
  admits : f.Admits

theorem parseObject_eq_ok_iff {o : ObjectParameter} : parseObject t = .ok o ↔
    (∀ c ∈ t.getLast?, isBlank c = false) ∧
      ∃ f d, Spells f d t ∧ o = .ofParts (f.typeAfter {}) d := by
  unfold parseObject
  constructor
  · intro h
    cases hname : splitName? t with
    | none => simp [hname] at h
    | some sides =>
      obtain ⟨ws, d⟩ := sides
      obtain ⟨hws, hwords, hend⟩ := splitName?_eq_some_iff.mp hname
      simp only [hname] at h
      cases htype : ObjectParameter.TypePart.ofWords {} ws with
      | error w => simp [htype] at h
      | ok type =>
        obtain ⟨f, hf, rfl, rfl⟩ := TypeWords.exists_of_ofWords hws htype
        simp only [htype, Except.ok.injEq] at h
        exact ⟨hend, f, d, ⟨hwords, hf⟩, h.symm⟩
  · rintro ⟨hend, f, d, ⟨hwords, hf⟩, rfl⟩
    rw [splitName?_eq_some_iff.mpr ⟨f.toList_ne_nil, hwords, hend⟩]
    simp only [TypeWords.ofWords_toList hf]

theorem unbordered_callbackMark : Unbordered callbackMark := by decide

/-- The declarator of a function pointer loses the space in front of it and nothing else. -/
theorem trim_callbackMark_append {args : Text} (h : (callbackMark ++ args).getLast? = some ')') :
    trim (callbackMark ++ args) = '(' :: '*' :: args := by
  have hspace : AllBlank [' '] := by simp [AllBlank, isBlank_space]
  have htight : Tight ('(' :: '*' :: args) := by
    refine ⟨by simpa using (by decide : isBlank '(' = false), fun c hc => ?_⟩
    rw [callbackMark, List.cons_append, List.getLast?_cons_of_ne_nil (by simp)] at h
    rw [show ('(' :: '*' :: args).getLast? = some ')' from h] at hc
    cases hc
    decide
  exact (trim_blank_append hspace _).trans (trim_eq_self htight)

theorem parseCallback_append {args : Text} (hfirst : ¬ callbackMark <:+: front)
    (h : (front ++ (callbackMark ++ args)).getLast? = some ')') :
    parseCallback (front ++ (callbackMark ++ args)) = if trim front = [] then
      .error (.missingDeclarator (front ++ (callbackMark ++ args))) else
        .ok (.callback (trim front) ('(' :: '*' :: args)) := by
  have hcut : cutAt? callbackMark (front ++ (callbackMark ++ args)) =
      some (front, callbackMark ++ args) :=
    (cutAt?_eq_some_iff unbordered_callbackMark).mpr ⟨rfl, List.prefix_append _ _, hfirst⟩
  rw [List.getLast?_append_of_ne_nil _ (by simp [callbackMark])] at h
  simp only [parseCallback, hcut, trim_callbackMark_append h, List.isEmpty_iff]

theorem parseCallback_eq_ok_iff {p : Parameter} (h : t.getLast? = some ')') :
    parseCallback t = .ok p ↔ ∃ front args, t = front ++ (callbackMark ++ args) ∧
      ¬ callbackMark <:+: front ∧ trim front ≠ [] ∧
        p = .callback (trim front) ('(' :: '*' :: args) := by
  constructor
  · intro hp
    cases hcut : cutAt? callbackMark t with
    | none => simp [parseCallback, hcut] at hp
    | some sides =>
      obtain ⟨front, rest⟩ := sides
      obtain ⟨rfl, ⟨args, rfl⟩, hfirst⟩ := (cutAt?_eq_some_iff unbordered_callbackMark).mp hcut
      rw [parseCallback_append hfirst h] at hp
      split at hp
      · cases hp
      · next hfront => exact ⟨front, args, rfl, hfirst, hfront, (Except.ok.inj hp).symm⟩
  · rintro ⟨front, args, rfl, hfirst, hfront, rfl⟩
    rw [parseCallback_append hfirst h, if_neg hfront]

/-- The texts of the three shapes of a parameter, and what they say. -/
inductive Denotes : Text → Parameter → Prop
  | variadic : Denotes ellipsis .variadic
  | callback {front args : Text} (closed : (front ++ (callbackMark ++ args)).getLast? = some ')')
      (first : ¬ callbackMark <:+: front) (typed : trim front ≠ []) :
      Denotes (front ++ (callbackMark ++ args)) (.callback (trim front) ('(' :: '*' :: args))
  | object {f : TypeWords} {d t : Text} (unclosed : t.getLast? ≠ some ')')
      (ended : ∀ c ∈ t.getLast?, isBlank c = false) (spells : Spells f d t) :
      Denotes t (.object (.ofParts (f.typeAfter {}) d))

theorem Spells.ne_ellipsis {f : TypeWords} {d : Text} (h : Spells f d t) : t ≠ ellipsis := by
  rintro rfl
  have hwords := congrArg List.length h.spelled
  have hone : (words ellipsis).length = 1 := by decide
  have htype := List.length_pos_of_ne_nil f.toList_ne_nil
  simp only [hone, List.length_append, List.length_singleton] at hwords
  omega

/-- Reading accepts a text of each shape, and gives what the text says. -/
theorem parse_eq_ok_iff {p : Parameter} : parse t = .ok p ↔ Denotes t p := by
  constructor
  · intro h
    unfold parse at h
    split_ifs at h with hdots hclosed
    · cases h
      exact hdots ▸ .variadic
    · obtain ⟨front, args, rfl, hfirst, htyped, rfl⟩ := (parseCallback_eq_ok_iff hclosed).mp h
      exact .callback hclosed hfirst htyped
    · cases ho : parseObject t with
      | error e => simp [ho, Except.map] at h
      | ok o =>
        obtain ⟨hend, f, d, hspells, rfl⟩ := parseObject_eq_ok_iff.mp ho
        simp only [ho, Except.map, Except.ok.injEq] at h
        exact h ▸ .object hclosed hend hspells
  · intro h
    cases h with
    | variadic => rfl
    | @callback front args closed first typed =>
      have hdots : front ++ (callbackMark ++ args) ≠ ellipsis := fun he => by
        rw [he] at closed
        exact absurd closed (by decide)
      rw [parse, if_neg hdots, if_pos closed]
      exact (parseCallback_eq_ok_iff closed).mpr ⟨_, _, rfl, first, typed, rfl⟩
    | object unclosed ended spells =>
      rw [parse, if_neg spells.ne_ellipsis, if_neg unclosed,
        parseObject_eq_ok_iff.mpr ⟨ended, _, _, spells, rfl⟩]
      rfl

end Parameter
end CallManual
