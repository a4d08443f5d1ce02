import CallManual.Proofs.Declaration.Blanks
import CallManual.Proofs.Declaration.Grammar
import CallManual.Proofs.Text.Nesting

/-!
# Callbacks in parameter lists

A list is cut at every separator, also at one inside the parentheses of a callback, and the line is
accepted when all pieces fit the grammar of a parameter by themselves. So most lists that are cut
inside a callback are refused: the piece that closes the parenthesis of the callback must be the
text of a callback again, or go on behind the parenthesis. The parameters of an accepted line keep
their parentheses balanced exactly when the list is cut nowhere else than directly inside its own.
-/
namespace CallManual.Declaration
open Text

variable {source head list inner rest t w : Text} {ws : List Text} {ps : List Parameter}
  {d : Declaration} {n m k : ℕ} {c : Char}

/-- With `n` open parentheses in front, the outermost closes behind the list only, and the list has
separators only where no other is open. -/
structure CutApart (n : ℕ) (t : Text) : Prop where
  level : nesting n t = some 1
  inside : ∀ front, front <+: t → nesting n front ≠ some 0
  apart : ∀ front, front ++ separator <+: t → nesting n front = some 1

theorem cutApart_nil_iff : CutApart n [] ↔ n = 1 := by
  constructor
  · intro h
    simpa using h.level
  · rintro rfl
    refine ⟨rfl, fun front hf => ?_, fun front hf => ?_⟩
    · simp [List.prefix_nil.mp hf]
    · simp [separator] at hf

theorem CutApart.ne_zero (h : CutApart n t) : n ≠ 0 := by
  simpa using h.inside [] List.nil_prefix

theorem cutApart_cons_iff (hstep : ∀ s, nesting n (c :: s) = nesting m s) :
    CutApart n (c :: t) ↔ (n ≠ 0 ∧ (separator <+: c :: t → n = 1)) ∧ CutApart m t := by
  constructor
  · intro h
    refine ⟨⟨h.ne_zero, fun hs => by simpa using h.apart [] hs⟩, ?_⟩
    refine ⟨hstep t ▸ h.level, fun front hf => ?_, fun front hf => ?_⟩
    · rw [← hstep]
      exact h.inside _ (List.cons_prefix_cons.mpr ⟨rfl, hf⟩)
    · rw [← hstep]
      exact h.apart _ (List.cons_prefix_cons.mpr ⟨rfl, hf⟩)
  · rintro ⟨⟨hn, hs⟩, h⟩
    refine ⟨(hstep t).trans h.level, fun front hf => ?_, fun front hf => ?_⟩
    · cases front with
      | nil => simpa using hn
      | cons x front =>
        obtain ⟨rfl, htail⟩ := List.cons_prefix_cons.mp hf
        rw [hstep]
        exact h.inside front htail
    · cases front with
      | nil => simpa using hs hf
      | cons x front =>
        obtain ⟨rfl, htail⟩ := List.cons_prefix_cons.mp hf
        rw [hstep]
        exact h.apart front htail

/-- The first piece of a list may start inside parentheses, the other pieces do not. -/
theorem wellNested_pieces_iff (h : splitParameters t = w :: ws) :
    (nesting k w = some 0 ∧ ∀ v ∈ ws, WellNested v) ↔ CutApart (k + 1) t := by
  fun_induction splitParameters t generalizing k w ws with
  | case1 =>
    obtain ⟨rfl, rfl⟩ := List.cons.inj h
    simp [cutApart_nil_iff]
  | case2 t ih =>
    obtain ⟨rfl, rfl⟩ := List.cons.inj h
    obtain ⟨v, vs, hv⟩ := List.exists_cons_of_ne_nil (splitParameters_ne_nil t)
    have hcomma (s : Text) : nesting (k + 1) (',' :: s) = nesting (k + 1) s :=
      nesting_cons _ (by decide) s
    have hspace (s : Text) : nesting (k + 1) (' ' :: s) = nesting (k + 1) s :=
      nesting_cons _ (by decide) s
    rw [cutApart_cons_iff hcomma, cutApart_cons_iff hspace, hv, List.forall_mem_cons]
    cases k with
    | zero => simpa [WellNested, separator] using ih hv
    | succ k => simp [separator]
  | case3 c t hc ih =>
    obtain ⟨v, vs, hv⟩ := List.exists_cons_of_ne_nil (splitParameters_ne_nil t)
    rw [hv, List.modifyHead_cons] at h
    obtain ⟨rfl, rfl⟩ := List.cons.inj h
    have hsep : ¬ separator <+: c :: t := by
      rintro ⟨s, hs⟩
      obtain ⟨rfl, rfl⟩ := List.cons.inj hs
      exact hc s rfl rfl
    induction c using nesting_cases with
    | hopen => simpa [cutApart_cons_iff (nesting_open (k + 1)), hsep] using ih hv
    | hclose =>
      cases k with
      | zero =>
        rw [cutApart_cons_iff (nesting_close_succ 0)]
        simpa using fun (h : CutApart 0 t) => h.ne_zero rfl
      | succ k => simpa [cutApart_cons_iff (nesting_close_succ (k + 1)), hsep] using ih hv
    | hother c hp =>
      rw [cutApart_cons_iff (nesting_cons (k + 1) hp), nesting_cons k hp]
      simpa [hsep] using ih hv

theorem forall_wellNested_pieces_iff : (∀ v ∈ splitParameters t, WellNested v) ↔ CutApart 1 t := by
  obtain ⟨w, ws, h⟩ := List.exists_cons_of_ne_nil (splitParameters_ne_nil t)
  rw [h, List.forall_mem_cons]
  exact wellNested_pieces_iff h

theorem not_isParen_of_isBlank (c : Char) (h : isBlank c = true) : isParen c = false := by
  induction c using nesting_cases with
  | hopen => exact absurd h (by decide)
  | hclose => exact absurd h (by decide)
  | hother c hc => exact hc

theorem nesting_respace (n : ℕ) (raw : Text) : nesting n (respace raw) = nesting n raw := by
  rw [← nesting_filter, filter_respace not_isParen_of_isBlank, nesting_filter]

theorem nesting_trim (n : ℕ) (t : Text) : nesting n (trim t) = nesting n t := by
  obtain ⟨b, e, hb, he, ht⟩ := exists_trim t
  have hblank {x : Text} (hx : AllBlank x) (m : ℕ) : nesting m x = some m :=
    nesting_of_no_paren m fun c hc => not_isParen_of_isBlank c (hx c hc)
  conv_rhs => rw [ht, nesting_append, nesting_append, hblank hb, Option.bind_some]
  cases nesting n (trim t) with
  | none => rfl
  | some m => exact (hblank he m).symm

theorem forall_wellNested_iff_of_forall₂
    (h : List.Forall₂ (fun raw p => parseParameter raw = .ok p) ws ps) :
    (∀ p ∈ ps, WellNested p.render) ↔ ∀ raw ∈ ws, WellNested raw := by
  induction h with
  | nil => simp
  | cons hp _ ih =>
    rw [List.forall_mem_cons, List.forall_mem_cons, ih, (parseParameter_eq_ok_iff.mp hp).2,
      WellNested, nesting_respace, WellNested]

theorem forall_wellNested_render_iff (h : parseParameters list = .ok ps) :
    (∀ p ∈ ps, WellNested p.render) ↔ CutApart 1 list := by
  rw [← forall_wellNested_pieces_iff]
  rcases parseParameters_eq_ok_iff.mp h with ⟨rfl, rfl⟩ | ⟨-, h⟩
  · decide
  · exact forall_wellNested_iff_of_forall₂ h

/-- Texts that close no parenthesis but their own only add to what is open in front of them, and
add nothing when they are balanced. -/
theorem forall_wellNested_of_join (hws : ∀ w ∈ ws, nesting 0 w ≠ none)
    (hlist : nesting n (join separator ws) = some m) :
    n ≤ m ∧ (m = n → ∀ w ∈ ws, WellNested w) := by
  induction ws generalizing n with
  | nil =>
    obtain rfl := Option.some.inj hlist
    simp
  | cons w ws ih =>
    obtain ⟨k, hk⟩ := Option.ne_none_iff_exists'.mp (hws w List.mem_cons_self)
    have hn : nesting n w = some (k + n) := by simpa using nesting_add hk n
    by_cases hne : ws = []
    · subst hne
      rw [join_singleton, hn] at hlist
      obtain rfl := Option.some.inj hlist
      refine ⟨Nat.le_add_left n k, fun hm => ?_⟩
      obtain rfl : k = 0 := by omega
      simpa [WellNested] using hk
    · have hcomma (s : Text) : nesting (k + n) (',' :: ' ' :: s) = nesting (k + n) s := by
        rw [nesting_cons _ (by decide), nesting_cons _ (by decide)]
      rw [join_cons_of_ne_nil w hne, nesting_append, hn, Option.bind_some, hcomma] at hlist
      obtain ⟨hle, hall⟩ := ih (fun v hv => hws v (List.mem_cons_of_mem _ hv)) hlist
      refine ⟨by omega, fun hm => ?_⟩
      obtain rfl : k = 0 := by omega
      rw [List.forall_mem_cons]
      exact ⟨hk, hall (by omega)⟩

/-- A line up to its parameters: a return type and a name in front of the first opening parenthesis,
a list up to the last closing one, and nothing but white space and a semicolon behind it. -/
def HasList (source list : Text) : Prop :=
  ∃ head inner rest named, source = head ++ '(' :: (inner ++ ')' :: rest) ∧ '(' ∉ head ∧
    ')' ∉ rest ∧ splitHead? head = some named ∧ closing rest = [] ∧ trim inner = list ∧ list ≠ []

theorem hasList_of_parse (h : parse source = .ok d) : ∃ list, HasList source list := by
  obtain ⟨head, tail, list, hcut, hhead, hlist, hne, -⟩ := parse_eq_ok_iff.mp h
  obtain ⟨c, hc, hfirst, htrim⟩ := cutFirst?_eq_some_iff.mp hcut
  obtain ⟨inner, rest, rfl, rfl, hrest⟩ := parameterList?_eq_some hlist
  obtain ⟨b, e, hb, he, hsource⟩ := exists_trim source
  obtain rfl : c = '(' := by simpa using hc
  have hopen : '(' ∉ b ++ head := by
    rw [List.mem_append, not_or]
    exact ⟨fun hm => absurd (hb _ hm) (by decide), fun hm => by simpa using hfirst _ hm⟩
  have hclose : ')' ∉ rest ++ e := by
    intro hm
    rcases List.mem_append.mp hm with hm | hm
    · exact absurd (hrest _ hm) (by decide)
    · exact absurd (he _ hm) (by decide)
  have hparts : source = (b ++ head) ++ '(' :: (inner ++ ')' :: (rest ++ e)) := by
    rw [hsource, htrim]
    simp
  obtain ⟨hnamed, hclosing, hfilled, -⟩ := (parse_enclosed_iff hopen hclose).mp (hparts ▸ h)
  exact ⟨trim inner, _, _, _, _, hparts, hopen, hclose, hnamed, hclosing, rfl, hfilled⟩

namespace HasList
variable (hl : HasList source list)
include hl

theorem parameters_of_parse (h : parse source = .ok d) :
    parseParameters list = .ok d.parameters := by
  obtain ⟨head, inner, rest, named, rfl, hhead, hrest, -, -, rfl, -⟩ := hl
  exact ((parse_enclosed_iff hhead hrest).mp h).2.2.2

theorem exists_parse_iff :
    (∃ d, parse source = .ok d) ↔ ∃ ps, parseParameters list = .ok ps := by
  refine ⟨fun ⟨d, hd⟩ => ⟨_, hl.parameters_of_parse hd⟩, fun ⟨ps, hps⟩ => ?_⟩
  obtain ⟨head, inner, rest, ⟨returnType, name⟩, rfl, hhead, hrest, hnamed, hclose, rfl, hne⟩ := hl
  exact ⟨⟨returnType, name, ps⟩, (parse_enclosed_iff hhead hrest).mpr ⟨hnamed, hclose, hne, hps⟩⟩

/-- The list of a balanced line starts inside one parenthesis and ends there. -/
theorem nesting_of_wellNested (h : WellNested source) : nesting 1 list = some 1 := by
  obtain ⟨head, inner, rest, -, rfl, hhead, hrest, -, -, rfl, -⟩ := hl
  rw [WellNested, nesting_append] at h
  obtain ⟨m, hm, h⟩ := Option.bind_eq_some_iff.mp h
  have hclose := nesting_zero_of_no_open hhead hm
  have hlevel : nesting 0 head = some 0 := by
    apply nesting_of_no_paren
    intro c hc
    induction c using nesting_cases with
    | hopen => exact absurd hc hhead
    | hclose => exact absurd hc hclose
    | hother c hp => exact hp
  obtain rfl : 0 = m := Option.some.inj (hlevel.symm.trans hm)
  rw [nesting_open, nesting_append] at h
  obtain ⟨k, hk, h⟩ := Option.bind_eq_some_iff.mp h
  cases k with
  | zero => cases h
  | succ k =>
    obtain rfl : k = 0 := Nat.le_zero.mp (le_of_nesting hrest h)
    rw [nesting_trim, hk]

end HasList

theorem exists_parseParameters_iff : (∃ ps, parseParameters list = .ok ps) ↔
    list = noParameters ∨ ∀ w ∈ splitParameters list, Fits (respace w) := by
  simp only [parseParameters_eq_ok_iff, ← exists_parseParameter_iff, ← exists_forall₂_iff]
  by_cases hlist : list = noParameters <;> simp [hlist]

theorem mem_splitParameters_noParameters : w ∈ splitParameters noParameters ↔ w = noParameters :=
  List.mem_singleton

theorem Fits.callbackMark_isInfix (h : Fits t) (hclosed : t.getLast? = some ')') :
    Parameter.callbackMark <:+: t := by
  rcases h with rfl | ⟨-, hmark⟩ | ⟨hopen, -⟩
  · exact absurd hclosed (by decide)
  · exact hmark
  · exact absurd hclosed hopen

/-- In a list that is cut elsewhere than directly inside its own parenthesis some piece closes a
parenthesis that it does not open. -/
theorem exists_nesting_eq_none (hlist : nesting 1 list = some 1) (hcut : ¬ CutApart 1 list) :
    ∃ w ∈ splitParameters list, nesting 0 w = none := by
  by_contra hall
  push Not at hall
  rw [← join_splitParameters list] at hlist
  exact hcut (forall_wellNested_pieces_iff.mp ((forall_wellNested_of_join hall hlist).2 rfl))

/-- The parameter that such a piece is read as. -/
theorem exists_parameter_nesting_eq_none (h : parseParameters list = .ok ps)
    (hlist : nesting 1 list = some 1) (hcut : ¬ CutApart 1 list) :
    ∃ p ∈ ps, nesting 0 p.render = none ∧
      (p.render.getLast? = some ')' → Parameter.callbackMark <:+: p.render) := by
  obtain ⟨w, hw, hnone⟩ := exists_nesting_eq_none hlist hcut
  rcases parseParameters_eq_ok_iff.mp h with ⟨rfl, -⟩ | ⟨-, hall⟩
  · rw [mem_splitParameters_noParameters.mp hw] at hnone
    exact absurd hnone (by decide)
  · obtain ⟨p, hp, hread⟩ := exists_of_forall₂ hall.flip hw
    refine ⟨p, hp, ?_⟩
    rw [(parseParameter_eq_ok_iff.mp hread).2, nesting_respace]
    exact ⟨hnone, (exists_parseParameter_iff.mp ⟨p, hread⟩).callbackMark_isInfix⟩

end CallManual.Declaration
