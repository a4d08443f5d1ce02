import CallManual.Proofs.Declaration.Splitting
import CallManual.Proofs.Fallible
import CallManual.Proofs.Text.Cut

/-!
# What reading a declaration gives

The steps of reading, taken apart, and the shape of whatever they accept: a tight return type, a
name that is one word without a star in front, and parameters whose text is respaced and reads as
the same parameter again.
-/
namespace CallManual.Declaration
open Text

variable {source tail head list raw : Text} {p : Parameter} {ps : List Parameter}
  {d : Declaration}

/-- A parameter whose text is respaced and reads as the parameter again. -/
structure ReadsBack (p : Parameter) : Prop where
  respaced : respace p.render = p.render
  parses : Parameter.parse p.render = .ok p

theorem parseParameter_eq_ok_iff : parseParameter raw = .ok p ↔
    Parameter.parse (respace raw) = .ok p ∧ p.render = respace raw := by
  rw [parseParameter]
  cases h : Parameter.parse (respace raw) with
  | error e => simp
  | ok q =>
    by_cases hq : q.render = respace raw
    · simp only [hq, if_true, Except.ok.injEq]
      exact ⟨fun hp => ⟨hp, hp ▸ hq⟩, fun hp => hp.1⟩
    · simp only [hq, if_false, reduceCtorEq, Except.ok.injEq, false_iff]
      rintro ⟨rfl, hp⟩
      exact hq hp

theorem readsBack_of_parseParameter (h : parseParameter raw = .ok p) : ReadsBack p := by
  obtain ⟨hparse, hrender⟩ := parseParameter_eq_ok_iff.mp h
  exact ⟨by rw [hrender, respace_respace], hrender ▸ hparse⟩

theorem ReadsBack.parseParameter_render (h : ReadsBack p) : parseParameter p.render = .ok p :=
  parseParameter_eq_ok_iff.mpr ⟨by rw [h.respaced, h.parses], h.respaced.symm⟩

theorem ReadsBack.spaced (h : ReadsBack p) : Spaced p.render := h.respaced ▸ spaced_respace p.render

theorem ReadsBack.ne_nil (h : ReadsBack p) : p.render ≠ [] := by
  intro he
  have hp := h.parses
  rw [he] at hp
  cases hp

theorem parseParameters_eq_ok_iff : parseParameters list = .ok ps ↔
    (list = noParameters ∧ ps = []) ∨ (list ≠ noParameters ∧
      List.Forall₂ (fun raw p => parseParameter raw = .ok p) (splitParameters list) ps) := by
  have hvoid : splitParameters list = [noParameters] ↔ list = noParameters := by
    constructor
    · intro h
      rw [← join_splitParameters list, h, join_singleton]
    · rintro rfl
      rfl
  unfold parseParameters
  simp only [hvoid]
  by_cases h : list = noParameters
  · simp [h, eq_comm]
  · simp [h, mapM_eq_ok_iff]

theorem readsBack_of_parseParameters (h : parseParameters list = .ok ps) :
    ∀ p ∈ ps, ReadsBack p := by
  rcases parseParameters_eq_ok_iff.mp h with ⟨-, rfl⟩ | ⟨-, h⟩
  · simp
  · intro p hp
    obtain ⟨raw, hraw⟩ := exists_of_forall₂ h hp
    exact readsBack_of_parseParameter hraw.2

/-- The head is white space, a front, a blank and a last word; stars in front of the last word go
to the return type. -/
theorem splitHead?_eq_some {returnType name : Text}
    (h : splitHead? head = some (returnType, name)) :
    ∃ front stars c, isBlank c = true ∧ trim head = front ++ c :: (stars ++ name) ∧
      returnType = trimEnd front ++ stars ∧ (∀ x ∈ stars, x = '*') ∧
      (∀ x ∈ stars ++ name, isBlank x = false) ∧ name ≠ [] ∧ name.head? ≠ some '*' := by
  unfold splitHead? at h
  cases hc : cutLast? isBlank (trim head) with
  | none => simp [hc] at h
  | some fl =>
    obtain ⟨front, last⟩ := fl
    obtain ⟨c, hblank, hlast, htrim⟩ := cutLast?_eq_some_iff.mp hc
    simp only [hc] at h
    split at h
    · cases h
    · next hne =>
      simp only [Option.some.injEq, Prod.mk.injEq] at h
      obtain ⟨rfl, rfl⟩ := h
      have hsplit : last.takeWhile (· == '*') ++ last.dropWhile (· == '*') = last :=
        List.takeWhile_append_dropWhile
      refine ⟨front, last.takeWhile (· == '*'), c, hblank, by rw [hsplit]; exact htrim, rfl, ?_, ?_,
        ?_, ?_⟩
      · intro x hx
        simpa using List.mem_takeWhile_imp hx
      · rw [hsplit]
        exact hlast
      · intro he
        simp [he] at hne
      · intro hstar
        have := List.head?_dropWhile_not (· == '*') last
        rw [hstar] at this
        simp at this

theorem name_of_splitHead? {returnType name : Text}
    (h : splitHead? head = some (returnType, name)) : IsWord name ∧ name.head? ≠ some '*' := by
  obtain ⟨front, stars, c, -, -, -, -, hlast, hne, hstar⟩ := splitHead?_eq_some h
  exact ⟨⟨hne, fun x hx => hlast x (List.mem_append_right _ hx)⟩, hstar⟩

/-- The head is tight, so the front of its cut starts with its first character, no white space. -/
theorem type_of_splitHead? {returnType name : Text}
    (h : splitHead? head = some (returnType, name)) : returnType ≠ [] ∧ Tight returnType := by
  obtain ⟨front, stars, c, hblank, htrim, rfl, -, hlast, -, -⟩ := splitHead?_eq_some h
  have htight := tight_trim head
  rw [htrim] at htight
  cases front with
  | nil =>
    have hc := htight.1 c rfl
    rw [hblank] at hc
    cases hc
  | cons x front =>
    have hx := htight.1 x rfl
    obtain ⟨s, hs⟩ := head?_trimEnd hx front
    refine ⟨by simp [hs], by simpa [hs] using hx, fun y hy => ?_⟩
    by_cases hstars : stars = []
    · rw [hstars, List.append_nil] at hy
      exact getLast?_trimEnd (x :: front) y hy
    · rw [List.getLast?_append_of_ne_nil _ hstars] at hy
      exact hlast y (List.mem_append_left _ (List.mem_of_mem_getLast? hy))

theorem mem_of_splitHead? {returnType name : Text} {x : Char}
    (h : splitHead? head = some (returnType, name)) (hx : x ∈ returnType ∨ x ∈ name) :
    x ∈ head := by
  obtain ⟨front, stars, c, -, htrim, rfl, -⟩ := splitHead?_eq_some h
  obtain ⟨e, -, hfront⟩ := exists_trimEnd front
  apply (trim_isInfix head).mem
  rw [htrim, hfront]
  rcases hx with hx | hx
  · rcases List.mem_append.mp hx with hx | hx <;> simp [hx]
  · simp [hx]

theorem splitHead?_eq_of_word {returnType name : Text} (htype : Tight returnType)
    (hne : returnType ≠ []) (hname : IsWord name) (hstar : name.head? ≠ some '*') :
    splitHead? (returnType ++ ' ' :: name) = some (returnType, name) := by
  obtain ⟨c, t, rfl⟩ := List.exists_cons_of_ne_nil hne
  obtain ⟨x, n, rfl⟩ := List.exists_cons_of_ne_nil hname.1
  have hx : x ≠ '*' := by simpa using hstar
  have htight : Tight (c :: t ++ ' ' :: x :: n) := by
    refine ⟨fun d hd => htype.1 d hd, fun d hd => hname.2 d ?_⟩
    rw [List.getLast?_append, List.getLast?_cons_cons] at hd
    exact List.mem_of_mem_getLast? (by simpa [List.getLast?_cons] using hd)
  have hcut : cutLast? isBlank (c :: t ++ ' ' :: x :: n) = some (c :: t, x :: n) :=
    cutLast?_eq_some_iff.mpr ⟨' ', isBlank_space, hname.2, rfl⟩
  rw [splitHead?, trim_eq_self htight, hcut]
  simp [trimEnd_eq_self htype.2, hx]

/-- Behind the list stands its closing parenthesis, then at most white space and a semicolon. -/
theorem parameterList?_eq_some (h : parameterList? tail = some list) :
    ∃ inner rest, tail = inner ++ ')' :: rest ∧ list = trim inner ∧
      ∀ c ∈ rest, isBlank c = true ∨ c = ';' := by
  simp only [parameterList?, Option.map_eq_some_iff] at h
  obtain ⟨inner, hinner, rfl⟩ := h
  obtain ⟨e, he, htail⟩ := exists_trimEnd tail
  have hdrop : ∃ s, (∀ c ∈ s, c = ';') ∧
      trimEnd tail = (dropSuffix? [';'] (trimEnd tail)).getD (trimEnd tail) ++ s := by
    cases hs : dropSuffix? [';'] (trimEnd tail) with
    | none => exact ⟨[], by simp⟩
    | some t => exact ⟨[';'], by simp, dropSuffix?_eq_some_iff.mp hs⟩
  obtain ⟨s, hs, hsemicolon⟩ := hdrop
  obtain ⟨e', he', hlist⟩ := exists_trimEnd ((dropSuffix? [';'] (trimEnd tail)).getD (trimEnd tail))
  rw [dropSuffix?_eq_some_iff.mp hinner] at hlist
  refine ⟨inner, e' ++ s ++ e, ?_, rfl, ?_⟩
  · rw [htail, hsemicolon, hlist]
    simp
  · intro c hc
    rcases List.mem_append.mp hc with hc | hc
    · rcases List.mem_append.mp hc with hc | hc
      · exact Or.inl (he' c hc)
      · exact Or.inr (hs c hc)
    · exact Or.inl (he c hc)

theorem parameterList?_closed (list : Text) :
    parameterList? (list ++ [')', ';']) = some (trim list) := by
  have hsemi : isBlank ';' = false := by decide
  have hparen : isBlank ')' = false := by decide
  have htail : trimEnd (list ++ [')', ';']) = (list ++ [')']) ++ [';'] := by
    rw [trimEnd_eq_self (by simp [hsemi])]
    simp
  have hlist : trimEnd (list ++ [')']) = list ++ [')'] := trimEnd_eq_self (by simp [hparen])
  have hdrop : dropSuffix? [';'] (list ++ [')'] ++ [';']) = some (list ++ [')']) :=
    dropSuffix?_eq_some_iff.mpr rfl
  have hdrop' : dropSuffix? [')'] (list ++ [')']) = some list := dropSuffix?_eq_some_iff.mpr rfl
  simp only [parameterList?, htail, hdrop, Option.getD_some, hlist, hdrop', Option.map_some]

theorem parse_eq_ok_iff : parse source = .ok d ↔ ∃ head tail list,
    cutFirst? (· == '(') (trim source) = some (head, tail) ∧
    splitHead? head = some (d.returnType, d.name) ∧ parameterList? tail = some list ∧
    list ≠ [] ∧ parseParameters list = .ok d.parameters := by
  obtain ⟨returnType, name, parameters⟩ := d
  rw [parse]
  cases hcut : cutFirst? (· == '(') (trim source) with
  | none => simp
  | some ht =>
    obtain ⟨head, tail⟩ := ht
    cases hhead : splitHead? head with
    | none => simp [hhead]
    | some rn =>
      obtain ⟨r, n⟩ := rn
      cases hlist : parameterList? tail with
      | none => simp [hhead, hlist]
      | some list =>
        cases list with
        | nil => simp [hhead, hlist]
        | cons c list =>
          cases hps : parseParameters (c :: list) <;>
            simp [hhead, hlist, hps, Except.map, and_assoc]

/-- A parameter list is refused for one of its parameters. -/
theorem exists_token_of_parseParameters {e : DeclarationError}
    (h : parseParameters list = .error e) : ∃ token,
      (∃ cause, e = .parameter token cause) ∨ ∃ rendered, e = .notWrittenBack token rendered := by
  rw [parseParameters] at h
  split at h
  · cases h
  · obtain ⟨raw, -, hraw⟩ := exists_of_mapM_eq_error h
    rw [parseParameter] at hraw
    split at hraw
    · next cause _ =>
      cases hraw
      exact ⟨_, Or.inl ⟨cause, rfl⟩⟩
    · split at hraw
      · cases hraw
      · cases hraw
        exact ⟨_, Or.inr ⟨_, rfl⟩⟩

/-- A line with an opening parenthesis that is closed at its end has both of its parentheses. -/
theorem parse_ne_missing_paren (hopen : '(' ∈ source) (hclosed : [')', ';'] <:+ source)
    (line : Text) : parse source ≠ .error (.missingOpenParen line) ∧
      parse source ≠ .error (.missingCloseParen line) := by
  obtain ⟨front, rfl⟩ := hclosed
  have hfront : '(' ∈ trimStart front := mem_trimStart (by decide) (by simpa using hopen)
  obtain ⟨head, tail, htrim, hhead⟩ := List.eq_append_cons_of_mem hfront
  have hline : trim (front ++ [')', ';']) = head ++ '(' :: (tail ++ [')', ';']) := by
    have hblank : isBlank ')' = false ∧ isBlank ';' = false := by decide
    have htight : Tight [')', ';'] := ⟨by simpa using hblank.1, by simpa using hblank.2⟩
    rw [trim_append_tight htight (by simp), htrim, List.append_assoc, List.cons_append]
  have hother : ∀ c ∈ head, (c == '(') = false := fun c hc => by
    simpa using fun he : c = '(' => hhead (he ▸ hc)
  have hcut : cutFirst? (· == '(') (trim (front ++ [')', ';'])) =
      some (head, tail ++ [')', ';']) := by
    rw [hline]
    exact cutFirst?_append (by decide) hother _
  simp only [parse, hcut, parameterList?_closed]
  cases splitHead? head with
  | none => simp
  | some sides =>
    cases trim tail with
    | nil => simp
    | cons c list =>
      cases hps : parseParameters (c :: list) with
      | ok ps => simp [Except.map, hps]
      | error e =>
        obtain ⟨token, ⟨cause, rfl⟩ | ⟨rendered, rfl⟩⟩ := exists_token_of_parseParameters hps <;>
          simp [Except.map, hps]

theorem list_isInfix_of_parse (h : parse source = .ok d) :
    ∃ list, list <:+: source ∧ parseParameters list = .ok d.parameters := by
  obtain ⟨head, tail, list, hcut, -, hlist, -, hps⟩ := parse_eq_ok_iff.mp h
  obtain ⟨c, -, -, htrim⟩ := cutFirst?_eq_some_iff.mp hcut
  obtain ⟨inner, rest, rfl, rfl, -⟩ := parameterList?_eq_some hlist
  refine ⟨trim inner, ?_, hps⟩
  calc trim inner <:+: inner := trim_isInfix inner
    _ <:+: inner ++ ')' :: rest := List.infix_append_left
    _ <:+: trim source := htrim ▸ List.infix_append_of_infix_right (List.infix_cons List.infix_rfl)
    _ <:+: source := trim_isInfix source

theorem length_le_of_parseParameters (h : parseParameters list = .ok ps) :
    ps.length ≤ (splitParameters list).length := by
  rcases parseParameters_eq_ok_iff.mp h with ⟨-, rfl⟩ | ⟨-, h⟩
  · exact Nat.zero_le _
  · exact h.length_eq.ge

theorem arity_le_of_parse (h : parse source = .ok d) :
    d.arity ≤ (splitParameters source).length := by
  obtain ⟨list, hlist, hps⟩ := list_isInfix_of_parse h
  exact (length_le_of_parseParameters hps).trans (length_splitParameters_le_of_isInfix hlist)

/-- The shape of the declarations that reading accepts. -/
structure Regular (d : Declaration) : Prop where
  type_ne_nil : d.returnType ≠ []
  type_tight : Tight d.returnType
  type_open : '(' ∉ d.returnType
  name_word : IsWord d.name
  name_star : d.name.head? ≠ some '*'
  name_open : '(' ∉ d.name
  parameters : ∀ p ∈ d.parameters, ReadsBack p

theorem regular_of_parse (h : parse source = .ok d) : Regular d := by
  obtain ⟨head, tail, list, hcut, hhead, -, -, hps⟩ := parse_eq_ok_iff.mp h
  obtain ⟨-, -, hfirst, -⟩ := cutFirst?_eq_some_iff.mp hcut
  have hopen : '(' ∉ head := fun hm => by simpa using hfirst '(' hm
  obtain ⟨hne, htight⟩ := type_of_splitHead? hhead
  obtain ⟨hword, hstar⟩ := name_of_splitHead? hhead
  exact {
    type_ne_nil := hne
    type_tight := htight
    type_open := fun hm => hopen (mem_of_splitHead? hhead (Or.inl hm))
    name_word := hword
    name_star := hstar
    name_open := fun hm => hopen (mem_of_splitHead? hhead (Or.inr hm))
    parameters := readsBack_of_parseParameters hps }

end CallManual.Declaration
