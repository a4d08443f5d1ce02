import CallManual.Proofs.Declaration.Selection
import CallManual.Proofs.Text.Trim

/-!
# The rules of the choice

Which declaration is chosen depends on the public names of the candidates and on their numbers of
parameters alone. The rules are tried in order: the call name itself, the one name that the call
name starts with, and the call name without its version digits. They always come to a decision, and
the selection makes that decision.
-/
namespace CallManual.Declaration
open Text

variable {d e : Declaration} {cs ds : List Declaration} {n base : Text}

/-- How a candidate is known to those who look for `n`: one underscore in front of its name is
dropped when the rest is not empty and `n` starts with it. -/
inductive KnownAs (n : Text) : Declaration → Declaration → Prop
  | short {d : Declaration} {rest : Text} (name : d.name = '_' :: rest) (ne_nil : rest ≠ [])
      (fits : rest <+: n) : KnownAs n d { d with name := rest }
  | same {d : Declaration}
      (unfit : ∀ rest, d.name = '_' :: rest → rest ≠ [] → ¬ rest <+: n) : KnownAs n d d

theorem knownAs_withPublicName (n : Text) (d : Declaration) : KnownAs n d (withPublicName n d) := by
  unfold withPublicName
  split
  · next c rest hname =>
    split
    · next hfits => exact .short hname (by simp) (List.isPrefixOf_iff_prefix.mp hfits)
    · next hfits =>
      refine .same fun t ht _ => ?_
      obtain rfl : t = c :: rest := by simpa [hname] using ht.symm
      exact mt List.isPrefixOf_iff_prefix.mpr hfits
  · next hname =>
    refine .same fun t ht hne => ?_
    obtain ⟨c, rest, rfl⟩ := List.exists_cons_of_ne_nil hne
    exact absurd ht (hname c rest)

theorem KnownAs.unique {e' : Declaration} (h : KnownAs n d e) (h' : KnownAs n d e') : e = e' := by
  cases h with
  | short name ne_nil fits =>
    cases h' with
    | short name' => rw [(List.cons.inj (name.symm.trans name')).2]
    | same unfit => exact absurd fits (unfit _ name ne_nil)
  | same unfit =>
    cases h' with
    | short name ne_nil fits => exact absurd fits (unfit _ name ne_nil)
    | same => rfl

theorem withPublicName_eq_iff : withPublicName n d = e ↔ KnownAs n d e :=
  ⟨fun h => h ▸ knownAs_withPublicName n d, (knownAs_withPublicName n d).unique⟩

/-- The declarations of one name, in their order. -/
def called (n : Text) (ds : List Declaration) : List Declaration := ds.filter fun d => d.name = n

/-- The declarations whose name the call name starts with, in their order. -/
def fitting (n : Text) (ds : List Declaration) : List Declaration :=
  ds.filter fun d => d.name.isPrefixOf n

/-- A declaration with fewer parameters in front of it and no more behind it. -/
def IsRichest (d : Declaration) (ds : List Declaration) : Prop :=
  ∃ front back, ds = front ++ d :: back ∧ (∀ e ∈ front, e.arity < d.arity) ∧
    ∀ e ∈ back, e.arity ≤ d.arity

/-- The text in front of all digits at the end of a call name, where there is such a text and there
are such digits. -/
structure IsBase (base n : Text) : Prop where
  ne_nil : base ≠ []
  version : ∃ digits, digits ≠ [] ∧ (∀ c ∈ digits, isDigit c = true) ∧ n = base ++ digits
  undigited : ∀ c ∈ base.getLast?, isDigit c = false

/-- The rules for a choice among candidates under their public names. Each constructor is one rule
and says that the rules in front of it do not apply. -/
inductive Decides (n : Text) (cs : List Declaration) : Except SelectionError Declaration → Prop
  | named {d : Declaration} (richest : IsRichest d (called n cs)) : Decides n cs (.ok d)
  | alone {d : Declaration} (unnamed : called n cs = []) (only : fitting n cs = [d]) :
      Decides n cs (.ok d)
  | unversioned {base : Text} {d : Declaration} (unnamed : called n cs = [])
      (notAlone : ∀ e, fitting n cs ≠ [e]) (isBase : IsBase base n) (only : called base cs = [d]) :
      Decides n cs (.ok d)
  | tied {base : Text} (unnamed : called n cs = []) (notAlone : ∀ e, fitting n cs ≠ [e])
      (isBase : IsBase base n) (tie : 2 ≤ (called base cs).length) :
      Decides n cs (.error (.ambiguous n ((called base cs).map render)))
  | unmatched (unnamed : called n cs = []) (notAlone : ∀ e, fitting n cs ≠ [e])
      (unfound : ∀ base, IsBase base n → called base cs = []) : Decides n cs (.error (.noMatch n))

theorem richest?_of_isRichest (h : IsRichest d ds) : richest? ds = some d := by
  obtain ⟨front, back, rfl, hfront, hback⟩ := h
  induction front with
  | nil => exact richest?_cons_of_le hback
  | cons c front ih =>
    rw [List.forall_mem_cons] at hfront
    rw [List.cons_append, richest?, ih hfront.2]
    simp [hfront.1]

theorem isRichest_of_richest? (h : richest? ds = some d) : IsRichest d ds := by
  induction ds generalizing d with
  | nil => cases h
  | cons c ds ih =>
    cases hr : richest? ds with
    | none =>
      rw [richest?, hr, Option.some.injEq] at h
      obtain rfl := richest?_eq_none_iff.mp hr
      exact ⟨[], [], by rw [h]; rfl, by simp, by simp⟩
    | some e =>
      rw [richest?, hr, Option.some.injEq] at h
      split at h
      · next hlt =>
        subst h
        obtain ⟨front, back, rfl, hfront, hback⟩ := ih hr
        exact ⟨c :: front, back, rfl, List.forall_mem_cons.mpr ⟨hlt, hfront⟩, hback⟩
      · next hle =>
        subst h
        refine ⟨[], ds, rfl, by simp, fun x hx => ?_⟩
        have := arity_le_of_richest? hr hx
        omega

theorem IsRichest.mem (h : IsRichest d ds) : d ∈ ds := by
  obtain ⟨front, back, rfl, -⟩ := h
  simp

theorem exists_isRichest (h : ds ≠ []) : ∃ d, IsRichest d ds := by
  obtain ⟨d, hd⟩ := Option.ne_none_iff_exists'.mp (mt richest?_eq_none_iff.mp h)
  exact ⟨d, isRichest_of_richest? hd⟩

theorem isBase_iff : IsBase base n ↔ unversioned n = base ∧ base ≠ [] ∧ base ≠ n := by
  have hdigits : unversioned n = base ↔
      (∃ digits, (∀ c ∈ digits, isDigit c = true) ∧ n = base ++ digits) ∧
        ∀ c ∈ base.getLast?, isDigit c = false := rdropWhile_eq_iff
  rw [hdigits]
  constructor
  · rintro ⟨hne, ⟨digits, hversion, hall, rfl⟩, hlast⟩
    exact ⟨⟨⟨digits, hall, rfl⟩, hlast⟩, hne, by simpa using hversion⟩
  · rintro ⟨⟨⟨digits, hall, rfl⟩, hlast⟩, hne, hself⟩
    exact ⟨hne, ⟨digits, by simpa using hself, hall, rfl⟩, hlast⟩

theorem IsBase.isPrefix (h : IsBase base n) : base <+: n := by
  obtain ⟨digits, -, -, rfl⟩ := h.version
  exact List.prefix_append base digits

theorem called_fitting (h : base <+: n) (cs : List Declaration) :
    called base (fitting n cs) = called base cs := by
  rw [called, called, fitting, List.filter_filter]
  refine List.filter_congr fun d _ => ?_
  by_cases hname : d.name = base <;> simp [hname, List.isPrefixOf_iff_prefix, h]

theorem mem_fitting_of_mem_called (h : d ∈ called n cs) : d ∈ fitting n cs :=
  List.mem_of_mem_filter (called_fitting List.prefix_rfl cs ▸ h)

theorem selectVersioned_of_isBase (h : IsBase base n) (cs : List Declaration) :
    selectVersioned n cs =
      match called base cs with
      | [] => .error (.noMatch n)
      | [d] => .ok d
      | es => .error (.ambiguous n (es.map render)) := by
  obtain ⟨rfl, hne, hn⟩ := isBase_iff.mp h
  have hversion : (unversioned n).isEmpty = false ∧ unversioned n ≠ n := ⟨by simpa using hne, hn⟩
  simp only [selectVersioned, hversion, Bool.false_or, decide_false]
  rfl

theorem selectVersioned_eq_noMatch (h : ∀ base, IsBase base n → called base cs = []) :
    selectVersioned n cs = .error (.noMatch n) := by
  by_cases hbase : IsBase (unversioned n) n
  · rw [selectVersioned_of_isBase hbase, h _ hbase]
  · have hnone : unversioned n = [] ∨ unversioned n = n := by
      by_contra hcon
      exact hbase (isBase_iff.mpr ⟨rfl, not_or.mp hcon⟩)
    simp [selectVersioned, hnone]

section Select

variable (hcs : ds.map (withPublicName n) = cs)
include hcs

theorem select_of_fitting_eq (h : fitting n cs = [d]) : select n ds = .ok d := by
  have h : admissible n ds = [d] := by rw [← h, ← hcs]; rfl
  rw [select, h]

theorem select_of_notAlone (h : ∀ e, fitting n cs ≠ [e]) : select n ds =
    match richest? (called n cs) with
    | some d => .ok d
    | none => selectVersioned n (fitting n cs) := by
  have hfit : admissible n ds = fitting n cs := by rw [← hcs]; rfl
  rw [select, hfit, ← called_fitting List.prefix_rfl cs]
  cases hes : fitting n cs with
  | nil => exact (selectVersioned_eq_noMatch fun _ _ => rfl).symm
  | cons e es =>
    cases es with
    | nil => exact absurd hes (h e)
    | cons => rfl

/-- What the rules decide is what is selected. -/
theorem select_of_decides {r : Except SelectionError Declaration} (h : Decides n cs r) :
    select n ds = r := by
  have hversioned (hnone : called n cs = []) (hnotAlone : ∀ e, fitting n cs ≠ [e]) :
      select n ds = selectVersioned n (fitting n cs) := by
    rw [select_of_notAlone hcs hnotAlone, hnone]
    rfl
  cases h with
  | @named d richest =>
    by_cases hone : ∃ e, fitting n cs = [e]
    · obtain ⟨e, he⟩ := hone
      have hd := mem_fitting_of_mem_called richest.mem
      rw [he, List.mem_singleton] at hd
      rw [select_of_fitting_eq hcs he, hd]
    · rw [select_of_notAlone hcs (not_exists.mp hone), richest?_of_isRichest richest]
  | alone unnamed only => exact select_of_fitting_eq hcs only
  | unversioned unnamed notAlone isBase only =>
    rw [hversioned unnamed notAlone, selectVersioned_of_isBase isBase,
      called_fitting isBase.isPrefix, only]
  | @tied base unnamed notAlone isBase tie =>
    rw [hversioned unnamed notAlone, selectVersioned_of_isBase isBase,
      called_fitting isBase.isPrefix]
    match called base cs, tie with
    | _ :: _ :: _, _ => rfl
  | unmatched unnamed notAlone unfound =>
    rw [hversioned unnamed notAlone, selectVersioned_eq_noMatch]
    intro base hbase
    rw [called_fitting hbase.isPrefix, unfound base hbase]

end Select

/-- The rules leave nothing open. -/
theorem exists_decides (n : Text) (cs : List Declaration) : ∃ r, Decides n cs r := by
  by_cases hnamed : called n cs = []
  · by_cases hone : ∃ d, fitting n cs = [d]
    · obtain ⟨d, hd⟩ := hone
      exact ⟨_, .alone hnamed hd⟩
    · have hnotAlone := not_exists.mp hone
      by_cases hbase : ∃ base, IsBase base n ∧ called base cs ≠ []
      · obtain ⟨base, hbase, hne⟩ := hbase
        by_cases hlength : (called base cs).length = 1
        · obtain ⟨d, hd⟩ := List.length_eq_one_iff.mp hlength
          exact ⟨_, .unversioned hnamed hnotAlone hbase hd⟩
        · have hpos := List.length_pos_of_ne_nil hne
          exact ⟨_, .tied hnamed hnotAlone hbase (by omega)⟩
      · refine ⟨_, .unmatched hnamed hnotAlone fun base hisBase => ?_⟩
        by_contra hne
        exact hbase ⟨base, hisBase, hne⟩
  · obtain ⟨d, hd⟩ := exists_isRichest hnamed
    exact ⟨_, .named hd⟩

/-- Each candidate is considered under the name it is known by for the call, which drops at most
one underscore and changes nothing else. The selection makes the one decision of the rules. Unless
the call name is a run of underscores, candidates of that name keep it. -/
theorem select_eq_iff_decides (n : Text) (ds : List Declaration) :
    (∀ d e, withPublicName n d = e ↔ KnownAs n d e) ∧
    (∀ r, select n ds = r ↔ Decides n (ds.map (withPublicName n)) r) ∧
    (¬ UnderscoreRun n → ∀ d ∈ ds, d.name = n → withPublicName n d = d) := by
  refine ⟨fun d e => withPublicName_eq_iff, fun r => ⟨fun h => ?_, select_of_decides rfl⟩, ?_⟩
  · obtain ⟨r', hr'⟩ := exists_decides n (ds.map (withPublicName n))
    rwa [← h, select_of_decides rfl hr']
  · rintro hrun d - rfl
    exact withPublicName_self hrun

/-- Two candidates come to the call name, one of them without its underscore. They have as many
parameters, so the one in front is chosen; one with more parameters has another name. -/
theorem select_of_shortened_name :
    let int (name : Text) : Parameter := .object { baseType := "int", name }
    let c : Declaration := ⟨"void", "exit", [int "status", int "flags"]⟩
    let d : Declaration := ⟨"long", "_exit2", [int "status"]⟩
    let e : Declaration := ⟨"void", "exit2", [int "code"]⟩
    (¬ UnderscoreRun "exit2" ∧ withPublicName "exit2" e = e) ∧
      select "exit2" [c, d, e] = .ok { d with name := "exit2" } := by
  intro int c d e
  have hrun : ¬ UnderscoreRun "exit2" := by decide
  obtain ⟨-, hdecides, hkept⟩ := select_eq_iff_decides "exit2" [c, d, e]
  have hrichest : IsRichest { d with name := "exit2" }
      (called "exit2" ([c, d, e].map (withPublicName "exit2"))) :=
    ⟨[], [e], rfl, by decide, by decide⟩
  exact ⟨⟨hrun, hkept hrun e (by simp) rfl⟩, (hdecides _).mpr (.named hrichest)⟩

end CallManual.Declaration
