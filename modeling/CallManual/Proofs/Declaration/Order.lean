import CallManual.Proofs.Declaration.Choice

/-!
# The order of the candidates

The rules of the choice look at the candidates of a name as a whole, and only the earliest of
several equally rich ones depends on their order. So candidates in another order lead to the same
outcome, up to such a tie, and candidates that the call name has nothing to do with to exactly the
same one.
-/
namespace CallManual.Declaration

variable {n : Text} {c d e : Declaration} {cs ds es : List Declaration}

/-- Two different candidates that are both known as `n`, with as many parameters as any that is. -/
structure IsTie (n : Text) (ds : List Declaration) (c c' : Declaration) : Prop where
  ne : c ≠ c'
  mem : c ∈ ds
  mem' : c' ∈ ds
  name : (withPublicName n c).name = n
  name' : (withPublicName n c').name = n
  arity : c.arity = c'.arity
  most : ∀ e ∈ ds, (withPublicName n e).name = n → e.arity ≤ c.arity

/-- Two outcomes of one kind. The chosen declarations differ only where they are the two sides of a
tie, and the listed ones only in their order. -/
inductive SameOutcome (n : Text) (ds : List Declaration) :
    Except SelectionError Declaration → Except SelectionError Declaration → Prop
  | chosen {d e : Declaration} (name : d.name = e.name) (arity : d.arity = e.arity)
      (eq_or_tie : d = e ∨
        ∃ c c', IsTie n ds c c' ∧ withPublicName n c = d ∧ withPublicName n c' = e) :
      SameOutcome n ds (.ok d) (.ok e)
  | noMatch : SameOutcome n ds (.error (.noMatch n)) (.error (.noMatch n))
  | ambiguous {rs ss : List Text} (perm : rs.Perm ss) :
      SameOutcome n ds (.error (.ambiguous n rs)) (.error (.ambiguous n ss))

theorem IsRichest.arity_le (h : IsRichest d cs) (he : e ∈ cs) : e.arity ≤ d.arity :=
  arity_le_of_richest? (richest?_of_isRichest h) he

theorem called_perm (h : cs.Perm ds) (n : Text) : (called n cs).Perm (called n ds) := h.filter _

theorem fitting_perm (h : cs.Perm ds) (n : Text) : (fitting n cs).Perm (fitting n ds) := h.filter _

theorem called_eq_nil_of_perm (h : cs.Perm ds) (hcs : called n cs = []) : called n ds = [] := by
  have hperm := called_perm h n
  rw [hcs] at hperm
  exact hperm.symm.eq_nil

theorem notAlone_of_perm (h : cs.Perm ds) (hcs : ∀ e, fitting n cs ≠ [e]) :
    ∀ e, fitting n ds ≠ [e] := by
  intro e he
  have hperm := fitting_perm h n
  rw [he] at hperm
  exact hcs e hperm.eq_singleton

/-- The two richest of a name in two orders have equally many parameters. When they differ, they are
two candidates in a tie. -/
theorem sameOutcome_of_isRichest (h : ds.Perm es)
    (hd : IsRichest d (called n (ds.map (withPublicName n))))
    (he : IsRichest e (called n (es.map (withPublicName n)))) :
    SameOutcome n ds (.ok d) (.ok e) := by
  have hperm := called_perm (h.map (withPublicName n)) n
  have harity : d.arity = e.arity := by
    have hle := he.arity_le (hperm.mem_iff.mp hd.mem)
    have hge := hd.arity_le (hperm.mem_iff.mpr he.mem)
    omega
  have hmem {x : Declaration} (hx : x ∈ called n (ds.map (withPublicName n))) :
      ∃ c ∈ ds, withPublicName n c = x ∧ x.name = n := by
    obtain ⟨hx, hname⟩ := List.mem_filter.mp hx
    obtain ⟨c, hc, rfl⟩ := List.mem_map.mp hx
    exact ⟨c, hc, rfl, by simpa using hname⟩
  obtain ⟨c, hc, rfl, hcn⟩ := hmem hd.mem
  obtain ⟨c', hc', rfl, hcn'⟩ := hmem (hperm.mem_iff.mpr he.mem)
  refine .chosen (hcn.trans hcn'.symm) harity ?_
  by_cases heq : withPublicName n c = withPublicName n c'
  · exact Or.inl heq
  · refine Or.inr ⟨c, c', ⟨fun hcc => heq (by rw [hcc]), hc, hc', hcn, hcn', ?_, ?_⟩, rfl, rfl⟩
    · simpa only [arity_withPublicName] using harity
    · intro x hx hxn
      have hle := hd.arity_le (List.mem_filter.mpr ⟨List.mem_map_of_mem hx, by simpa using hxn⟩)
      simpa only [arity_withPublicName] using hle

theorem sameOutcome_of_perm (h : ds.Perm es) :
    SameOutcome n ds (select n ds) (select n es) := by
  have hcs := h.map (withPublicName n)
  obtain ⟨r, hr⟩ := exists_decides n (ds.map (withPublicName n))
  rw [select_of_decides rfl hr]
  -- the rule that decides about one order decides about the other
  cases hr with
  | named richest =>
    have hne : called n (es.map (withPublicName n)) ≠ [] :=
      List.ne_nil_of_mem ((called_perm hcs n).mem_iff.mp richest.mem)
    obtain ⟨e, he⟩ := exists_isRichest hne
    rw [select_of_decides rfl (.named he)]
    exact sameOutcome_of_isRichest h richest he
  | @alone d unnamed only =>
    have hfit : fitting n (es.map (withPublicName n)) = [d] := by
      have hperm := fitting_perm hcs n
      rw [only] at hperm
      exact hperm.symm.eq_singleton
    rw [select_of_decides rfl (.alone (called_eq_nil_of_perm hcs unnamed) hfit)]
    exact .chosen rfl rfl (Or.inl rfl)
  | @unversioned base d unnamed notAlone isBase only =>
    have hbase : called base (es.map (withPublicName n)) = [d] := by
      have hperm := called_perm hcs base
      rw [only] at hperm
      exact hperm.symm.eq_singleton
    rw [select_of_decides rfl (.unversioned (called_eq_nil_of_perm hcs unnamed)
      (notAlone_of_perm hcs notAlone) isBase hbase)]
    exact .chosen rfl rfl (Or.inl rfl)
  | @tied base unnamed notAlone isBase tie =>
    have hperm := called_perm hcs base
    rw [select_of_decides rfl (.tied (called_eq_nil_of_perm hcs unnamed)
      (notAlone_of_perm hcs notAlone) isBase (hperm.length_eq ▸ tie))]
    exact .ambiguous (hperm.map render)
  | unmatched unnamed notAlone unfound =>
    rw [select_of_decides rfl (.unmatched (called_eq_nil_of_perm hcs unnamed)
      (notAlone_of_perm hcs notAlone)
      fun base hbase => called_eq_nil_of_perm hcs (unfound base hbase))]
    exact .noMatch

/-- The call name starts neither with the name of the candidate nor with that name without one
underscore in front. -/
def Unrelated (n : Text) (d : Declaration) : Prop :=
  ¬ d.name <+: n ∧ ∀ rest ∈ Text.dropPrefix? ['_'] d.name, ¬ rest <+: n

instance (n : Text) : DecidablePred (Unrelated n) := fun d => inferInstanceAs
  (Decidable (¬ d.name <+: n ∧ ∀ rest ∈ Text.dropPrefix? ['_'] d.name, ¬ rest <+: n))

def related (n : Text) (ds : List Declaration) : List Declaration :=
  ds.filter fun d => ¬ Unrelated n d

theorem Unrelated.not_isPrefix (h : Unrelated n d) : ¬ (withPublicName n d).name <+: n := by
  obtain heq | ⟨t, ht, heq⟩ := withPublicName_eq_or n d
  · rw [heq]
    exact h.1
  · rw [heq]
    apply h.2
    simp [Text.dropPrefix?, ht]

theorem admissible_related (n : Text) (ds : List Declaration) :
    admissible n (related n ds) = admissible n ds := by
  induction ds with
  | nil => rfl
  | cons d ds ih =>
    by_cases hd : Unrelated n d
    · have hdrop : admissible n (d :: ds) = admissible n ds := by
        simp [admissible, hd.not_isPrefix]
      rw [hdrop, ← ih, related, List.filter_cons_of_neg (by simpa using hd), related]
    · rw [related, List.filter_cons_of_pos (by simpa using hd), ← List.singleton_append,
        admissible_append, ← related, ih, ← admissible_append, List.singleton_append]

theorem select_related (n : Text) (ds : List Declaration) :
    select n (related n ds) = select n ds := by
  rw [select, admissible_related, ← select]

/-- Candidates in another order lead to the same outcome, and the choice is the same unless there is
a tie. Candidates that have nothing to do with the call name may come and go at any place. -/
theorem select_of_reordered (n : Text) (ds es : List Declaration) :
    (ds.Perm es → SameOutcome n ds (select n ds) (select n es)) ∧
    (related n ds = related n es → select n ds = select n es) := by
  refine ⟨sameOutcome_of_perm, fun h => ?_⟩
  rw [← select_related n ds, h, select_related]

/-- Two candidates are in a tie, one of them without its underscore, and the earlier one is chosen
in either order. A third one has nothing to do with the call name, wherever it stands. -/
theorem select_of_swapped_tie :
    let int (name : Text) : Parameter := .object { baseType := "int", name }
    let c : Declaration := ⟨"void", "exit", [int "status"]⟩
    let d : Declaration := ⟨"long", "_exit", [int "code"]⟩
    let u : Declaration := ⟨"int", "_exit_group", [int "status", int "flags"]⟩
    ([c, d].Perm [d, c] ∧ SameOutcome "exit" [c, d] (.ok c) (.ok { d with name := "exit" })) ∧
      (related "exit" [c, d] = related "exit" [u, c, u, d] ∧
        select "exit" [c, d] = select "exit" [u, c, u, d]) := by
  intro int c d u
  have hperm : [c, d].Perm [d, c] := .swap d c []
  have hrelated : related "exit" [c, d] = related "exit" [u, c, u, d] := by decide
  have hfirst : select "exit" [c, d] = .ok c := rfl
  have hsecond : select "exit" [d, c] = .ok { d with name := "exit" } := rfl
  have hsame := (select_of_reordered "exit" [c, d] [d, c]).1 hperm
  rw [hfirst, hsecond] at hsame
  exact ⟨⟨hperm, hsame⟩, hrelated, (select_of_reordered "exit" _ _).2 hrelated⟩

end CallManual.Declaration
