import CallManual.Availability.Scan
import CallManual.Proofs.Fallible
import Mathlib.Algebra.Ring.Nat

/-!
# Where call names are placed

A scan goes through the call names one by one and puts each into the slots of environments that
provide it. What one call name does to all slots at once gives what the slots hold in the end: the
call names that the environment of the slot provides and, with an order, none in front of it does.
With an order each call name is counted once.
-/
namespace CallManual.Availability

variable {environments probed : List Environment} {names callNames : List Text} {n : Text}

/-- The environment takes the call name when those `before` it are probed first. -/
def takes (firstOnly : Bool) (before : List Environment) (e : Environment) (c : Text) : Bool :=
  e.contains c && !(firstOnly && before.any (·.contains c))

/-- One call name goes into all slots whose environment takes it. -/
theorem place_mapIdx (firstOnly : Bool) (c : Text) (probed : List Environment)
    (held : ℕ → Environment → List Text) :
    place firstOnly c probed (probed.mapIdx fun i e => ⟨e.name, held i e⟩) =
      (probed.mapIdx fun i e =>
        ⟨e.name, if takes firstOnly (probed.take i) e c then c :: held i e else held i e⟩,
        probed.any (·.contains c)) := by
  induction probed generalizing held with
  | nil => rfl
  | cons e es ih =>
    -- `e` stands in front of all later environments, so it alone decides whether they are reached
    have ih := ih fun i => held (i + 1)
    rw [List.mapIdx_cons, List.mapIdx_cons, place]
    by_cases h : e.contains c = true
    · cases firstOnly with
      | true => simp [h, takes]
      | false => simp [h, ih, takes]
    · simp [h, ih, takes]

theorem mapIdx_eq_map {α β : Type} (f : α → β) (xs : List α) :
    (xs.mapIdx fun _ x => f x) = xs.map f := by
  apply List.ext_getElem?
  intro i
  rw [List.getElem?_mapIdx, List.getElem?_map]

theorem scan_eq (firstOnly : Bool) (probed : List Environment) (callNames : List Text) :
    scan firstOnly probed callNames =
      { slots := probed.mapIdx fun i e =>
          ⟨e.name, callNames.filter (takes firstOnly (probed.take i) e)⟩
        unavailable := callNames.filter fun c => !probed.any (·.contains c) } := by
  induction callNames with
  | nil => simp [scan, mapIdx_eq_map]
  | cons c callNames ih =>
    rw [scan, ih]
    simp only [place_mapIdx, List.filter_cons]
    cases probed.any (·.contains c) <;> rfl

/-- How many call names the slots hold, counted in each slot. -/
def recorded (slots : List Slot) : ℕ := (slots.map fun s => s.symbols.length).sum

/-- When the first environment takes a call name, one slot grows by it or none does. -/
theorem recorded_place (c : Text) (probed : List Environment) (slots : List Slot) :
    recorded (place true c probed slots).1 =
      recorded slots + if (place true c probed slots).2 then 1 else 0 := by
  induction probed generalizing slots with
  | nil => simp [place]
  | cons e es ih =>
    cases slots with
    | nil => simp [place]
    | cons s ss =>
      have ih := ih ss
      rw [place]
      split
      · simp only [recorded, List.map_cons, List.sum_cons, List.length_cons, if_true]
        omega
      · simp only [recorded, List.map_cons, List.sum_cons] at ih ⊢
        omega

theorem recorded_scan (probed : List Environment) (callNames : List Text) :
    recorded (scan true probed callNames).slots + (scan true probed callNames).unavailable.length =
      callNames.length := by
  induction callNames with
  | nil => simp [scan, recorded, Function.comp_def]
  | cons c callNames ih =>
    have hstep := recorded_place c probed (scan true probed callNames).slots
    rw [scan]
    cases hplaced : (place true c probed (scan true probed callNames).slots).2 <;>
      simp only [hplaced, if_true, if_false, List.length_cons, Bool.false_eq_true] at hstep ⊢ <;>
      omega

/-- An environment with this name, and none in front of it has the name. -/
def IsFirstNamed (environments : List Environment) (n : Text) (e : Environment) : Prop :=
  ∃ front back, environments = front ++ e :: back ∧ e.name = n ∧ ∀ x ∈ front, x.name ≠ n

/-- A listed name that no environment has, while all names in front of it are names of some. -/
def IsFirstUnknown (environments : List Environment) (names : List Text) (n : Text) : Prop :=
  ∃ front back, names = front ++ n :: back ∧ n ∉ environments.map Environment.name ∧
    ∀ x ∈ front, x ∈ environments.map Environment.name

theorem find?_eq_some_iff {e : Environment} :
    (environments.find? fun e => e.name = n) = some e ↔ IsFirstNamed environments n e := by
  rw [List.find?_eq_some_iff_append]
  constructor
  · rintro ⟨hname, front, back, henvs, hfront⟩
    exact ⟨front, back, henvs, by simpa using hname, by simpa using hfront⟩
  · rintro ⟨front, back, henvs, hname, hfront⟩
    exact ⟨by simpa using hname, front, back, henvs, by simpa using hfront⟩

theorem find?_eq_none_iff : (environments.find? fun e => e.name = n) = none ↔
    n ∉ environments.map Environment.name := by
  simp

theorem exists_isFirstNamed (h : n ∈ environments.map Environment.name) :
    ∃ e, IsFirstNamed environments n e := by
  cases hfind : environments.find? fun e => e.name = n with
  | none => exact absurd h (find?_eq_none_iff.mp hfind)
  | some e => exact ⟨e, find?_eq_some_iff.mp hfind⟩

theorem probed_ordered_eq_ok_iff : (ScanOrder.ordered names).probed environments = .ok probed ↔
    List.Forall₂ (IsFirstNamed environments) names probed := by
  rw [ScanOrder.probed, mapM_eq_ok_iff]
  constructor <;> apply List.Forall₂.imp <;> intro n e h
  · cases hfind : environments.find? fun e => e.name = n with
    | none => simp [hfind] at h
    | some x =>
      simp only [hfind, Except.ok.injEq] at h
      exact h ▸ find?_eq_some_iff.mp hfind
  · simp only [find?_eq_some_iff.mpr h]

theorem probed_ordered_eq_error_iff : (ScanOrder.ordered names).probed environments = .error n ↔
    IsFirstUnknown environments names n := by
  rw [ScanOrder.probed, mapM_eq_error_iff]
  constructor
  · rintro ⟨front, m, back, hnames, hfront, hm⟩
    cases hfind : environments.find? fun e => e.name = m with
    | some e => simp [hfind] at hm
    | none =>
      simp only [hfind, Except.error.injEq] at hm
      subst hm
      refine ⟨front, back, hnames, find?_eq_none_iff.mp hfind, fun x hx => ?_⟩
      obtain ⟨e, he⟩ := hfront x hx
      by_contra hunknown
      simp [find?_eq_none_iff.mpr hunknown] at he
  · rintro ⟨front, back, hnames, hn, hfront⟩
    refine ⟨front, n, back, hnames, fun x hx => ?_, by simp only [find?_eq_none_iff.mpr hn]⟩
    obtain ⟨e, he⟩ := exists_isFirstNamed (hfront x hx)
    exact ⟨e, by simp only [find?_eq_some_iff.mpr he]⟩

theorem map_name_of_forall₂ (h : List.Forall₂ (IsFirstNamed environments) names probed) :
    probed.map Environment.name = names := by
  induction h with
  | nil => rfl
  | cons hn _ ih =>
    obtain ⟨front, back, -, hname, -⟩ := hn
    rw [List.map_cons, hname, ih]

theorem known_of_forall₂ (h : List.Forall₂ (IsFirstNamed environments) names probed) :
    ∀ n ∈ names, n ∈ environments.map Environment.name := by
  induction h with
  | nil => simp
  | cons hn _ ih =>
    obtain ⟨front, back, rfl, rfl, -⟩ := hn
    exact List.forall_mem_cons.mpr ⟨by simp, ih⟩

theorem check_eq_ok_iff {order : ScanOrder} {a : Availability} :
    check environments callNames order = .ok a ↔
      ∃ probed, order.probed environments = .ok probed ∧
        scan order.names?.isSome probed callNames = a := by
  rw [check]
  cases order.probed environments <;> simp [Except.map]

theorem check_eq_error_iff {order : ScanOrder} :
    check environments callNames order = .error n ↔ order.probed environments = .error n := by
  rw [check]
  cases order.probed environments <;> simp [Except.map]

theorem takes_false (before : List Environment) (e : Environment) :
    takes false before e = e.contains := by
  funext c
  simp [takes]

theorem check_unordered (environments : List Environment) (callNames : List Text) :
    check environments callNames .unordered = .ok
      { slots := environments.map fun e => ⟨e.name, callNames.filter e.contains⟩
        unavailable := callNames.filter fun c => !environments.any (·.contains c) } := by
  refine check_eq_ok_iff.mpr ⟨environments, rfl, ?_⟩
  rw [ScanOrder.names?, Option.isSome_none, scan_eq]
  simp only [takes_false, mapIdx_eq_map]

theorem exists_check_eq_error_iff :
    (∃ n, check environments callNames (.ordered names) = .error n) ↔
      ∃ n ∈ names, n ∉ environments.map Environment.name := by
  constructor
  · rintro ⟨n, h⟩
    obtain ⟨front, back, rfl, hn, -⟩ := probed_ordered_eq_error_iff.mp (check_eq_error_iff.mp h)
    exact ⟨n, by simp, hn⟩
  · rintro ⟨n, hn, hunknown⟩
    cases h : check environments callNames (.ordered names) with
    | error m => exact ⟨m, rfl⟩
    | ok a =>
      obtain ⟨probed, hprobed, -⟩ := check_eq_ok_iff.mp h
      exact absurd (known_of_forall₂ (probed_ordered_eq_ok_iff.mp hprobed) n hn) hunknown

/-- The call names are dealt out to slots with these names: the slot of an environment has the call
names that the environment provides and none of a slot in front of it does. -/
structure IsDealt (names : List Text) (probed : List Environment) (callNames : List Text)
    (a : Availability) : Prop where
  length : a.slots.length = names.length
  slot : ∀ i n e, names[i]? = some n → probed[i]? = some e → a.slots[i]? = some
    (⟨n, callNames.filter fun c => e.contains c && !(probed.take i).any (·.contains c)⟩ : Slot)
  unavailable : a.unavailable = callNames.filter fun c => !probed.any (·.contains c)
  total : recorded a.slots + a.unavailable.length = callNames.length

theorem isDealt_scan (h : List.Forall₂ (IsFirstNamed environments) names probed) :
    IsDealt names probed callNames (scan true probed callNames) where
  length := by rw [scan_eq, List.length_mapIdx, h.length_eq]
  slot i n e hn he := by
    rw [← map_name_of_forall₂ h, List.getElem?_map, he, Option.map_some, Option.some.injEq] at hn
    rw [scan_eq, List.getElem?_mapIdx, he, Option.map_some, hn]
    rfl
  unavailable := by rw [scan_eq]
  total := recorded_scan probed callNames

theorem IsDealt.unique {a b : Availability} (hlen : names.length = probed.length)
    (ha : IsDealt names probed callNames a) (hb : IsDealt names probed callNames b) : a = b := by
  have hslots : a.slots = b.slots := by
    apply List.ext_getElem?
    intro i
    by_cases hi : i < names.length
    · have hn := List.getElem?_eq_getElem hi
      have he := List.getElem?_eq_getElem (hlen ▸ hi)
      rw [ha.slot i _ _ hn he, hb.slot i _ _ hn he]
    · rw [List.getElem?_eq_none (by have := ha.length; omega),
        List.getElem?_eq_none (by have := hb.length; omega)]
  cases a
  cases b
  rw [Availability.mk.injEq]
  exact ⟨hslots, ha.unavailable.trans hb.unavailable.symm⟩

/-- Without an order, each environment has a slot with what it provides. With an order, the first
listed name that no environment has is the error; without such a name the call names are dealt out
to the first environments with the listed names. -/
theorem check_places (environments : List Environment) (callNames : List Text) :
    check environments callNames .unordered = .ok
      { slots := environments.map fun e => ⟨e.name, callNames.filter e.contains⟩
        unavailable := callNames.filter fun c => !environments.any (·.contains c) } ∧
    ∀ names,
      ((∃ n, check environments callNames (.ordered names) = .error n) ↔
        ∃ n ∈ names, n ∉ environments.map Environment.name) ∧
      (∀ n, check environments callNames (.ordered names) = .error n ↔
        IsFirstUnknown environments names n) ∧
      ∀ a, check environments callNames (.ordered names) = .ok a ↔ ∃ probed,
        List.Forall₂ (IsFirstNamed environments) names probed ∧
          IsDealt names probed callNames a := by
  refine ⟨check_unordered environments callNames, fun names =>
    ⟨exists_check_eq_error_iff, fun n => ?_, fun a => ?_⟩⟩
  · rw [check_eq_error_iff, probed_ordered_eq_error_iff]
  · simp only [check_eq_ok_iff, probed_ordered_eq_ok_iff]
    constructor
    · rintro ⟨probed, hprobed, rfl⟩
      exact ⟨probed, hprobed, isDealt_scan hprobed⟩
    · rintro ⟨probed, hprobed, hdealt⟩
      exact ⟨probed, hprobed, (isDealt_scan hprobed).unique hprobed.length_eq hdealt⟩

/-- Two environments share a name, the order lists it twice, and a call name is asked for twice. -/
example : check [⟨"a", ["open"]⟩, ⟨"b", ["open", "clone"]⟩, ⟨"a", ["fork"]⟩]
    ["open", "fork", "clone", "open"] (.ordered ["b", "a", "b"]) = .ok
      { slots := [⟨"b", ["open", "clone", "open"]⟩, ⟨"a", []⟩, ⟨"b", []⟩]
        unavailable := ["fork"] } := by
  decide

end CallManual.Availability
