import CallManual.Proofs.Availability.Placement
import Mathlib.Data.List.Nodup

/-!
# What precedence decides

An order decides which slot has a call name, not whether some slot has it. Two orders that ask for
the same environments leave out the same call names, and what they do not leave out is in a slot.
With an order an environment has part of what it has without one, and the first that is listed has
all of it. Slots of different scans belong together by the name of their environment, not by their
position.
-/
namespace CallManual

/-- The environment is one of those to probe. Without an order all of them are. -/
def ScanOrder.asksFor : ScanOrder → Environment → Bool
  | unordered, _ => true
  | ordered names, e => names.elem e.name

namespace Availability

variable {environments probed front back : List Environment} {e : Environment} {order : ScanOrder}
  {callNames : List Text} {n : Text} {s : Slot} {firstOnly : Bool}

theorem mem_environments_of_mem_probed (h : order.probed environments = .ok probed)
    (he : e ∈ probed) : e ∈ environments := by
  cases order with
  | unordered =>
    cases h
    exact he
  | ordered names =>
    obtain ⟨n, -, front, back, rfl, -⟩ := exists_of_forall₂ (probed_ordered_eq_ok_iff.mp h) he
    simp

/-- The probed environment with the name of `e` is `e`, since names are distinct. -/
theorem mem_probed_of_name (hnames : (environments.map Environment.name).Nodup)
    (h : order.probed environments = .ok probed) (he : e ∈ environments)
    (hname : e.name ∈ probed.map Environment.name) : e ∈ probed := by
  obtain ⟨x, hx, hxe⟩ := List.mem_map.mp hname
  have henv := mem_environments_of_mem_probed h hx
  exact List.inj_on_of_nodup_map hnames henv he hxe ▸ hx

theorem mem_probed_iff (hnames : (environments.map Environment.name).Nodup)
    (h : order.probed environments = .ok probed) :
    e ∈ probed ↔ e ∈ environments ∧ order.asksFor e = true := by
  cases order with
  | unordered =>
    cases h
    simp [ScanOrder.asksFor]
  | ordered names =>
    have hlisted := map_name_of_forall₂ (probed_ordered_eq_ok_iff.mp h)
    simp only [ScanOrder.asksFor, List.elem_eq_mem, decide_eq_true_eq, ← hlisted]
    constructor
    · intro he
      exact ⟨mem_environments_of_mem_probed h he, List.mem_map_of_mem he⟩
    · rintro ⟨he, hname⟩
      exact mem_probed_of_name hnames h he hname

theorem mem_slots_scan_iff : s ∈ (scan firstOnly probed callNames).slots ↔
    ∃ front e back, probed = front ++ e :: back ∧
      s = ⟨e.name, callNames.filter (takes firstOnly front e)⟩ := by
  rw [scan_eq, List.mem_mapIdx]
  constructor
  · rintro ⟨i, hi, rfl⟩
    exact ⟨probed.take i, probed[i], probed.drop (i + 1), by simp, rfl⟩
  · rintro ⟨front, e, back, rfl, rfl⟩
    exact ⟨front.length, by simp, by simp⟩

theorem map_environment_scan (firstOnly : Bool) (probed : List Environment)
    (callNames : List Text) :
    (scan firstOnly probed callNames).slots.map Slot.environment =
      probed.map Environment.name := by
  rw [scan_eq]
  apply List.ext_getElem?
  intro i
  simp [List.getElem?_mapIdx, Function.comp_def]

/-- All call names are accounted for: each is left out as often as it is asked for, or some slot has
it that often. -/
structure Accounts (callNames : List Text) (a : Availability) : Prop where
  unavailable : ∀ c ∈ a.unavailable, a.unavailable.count c = callNames.count c
  recorded : ∀ c ∈ callNames, c ∉ a.unavailable →
    ∃ s ∈ a.slots, s.symbols.count c = callNames.count c

theorem accounts_scan (firstOnly : Bool) (probed : List Environment) (callNames : List Text) :
    Accounts callNames (scan firstOnly probed callNames) where
  unavailable c hc := by
    rw [scan_eq] at hc ⊢
    exact List.count_filter (List.mem_filter.mp hc).2
  recorded c hc havailable := by
    have hsome : probed.any (·.contains c) = true := by
      rw [scan_eq, List.mem_filter] at havailable
      simpa [hc] using havailable
    -- the first environment that provides `c` takes it in both kinds of scan
    have hfirst := List.find?_isSome.mpr (List.any_eq_true.mp hsome)
    obtain ⟨e, hfind⟩ := Option.isSome_iff_exists.mp hfirst
    obtain ⟨he, front, back, hprobed, hfront⟩ := List.find?_eq_some_iff_append.mp hfind
    have htakes : takes firstOnly front e c = true := by
      have hnone : front.any (·.contains c) = false := by simpa using hfront
      simp [takes, he, hnone]
    exact ⟨_, mem_slots_scan_iff.mpr ⟨front, e, back, hprobed, rfl⟩, List.count_filter htakes⟩

/-- What slots have under the name of an environment. -/
def held (slots : List Slot) (n : Text) : List Text :=
  (slots.filter fun s => s.environment = n).flatMap Slot.symbols

theorem held_eq_nil {slots : List Slot} (h : n ∉ slots.map Slot.environment) :
    held slots n = [] := by
  rw [held, List.flatMap_eq_nil_iff]
  intro s hs
  obtain ⟨hmem, hname⟩ := List.mem_filter.mp hs
  exact absurd (List.mem_map.mpr ⟨s, hmem, by simpa using hname⟩) h

/-- Among slots with different names, the one with a name has all that is recorded under it. -/
theorem held_of_mem {slots : List Slot} (hnodup : (slots.map Slot.environment).Nodup)
    (hs : s ∈ slots) : held slots s.environment = s.symbols := by
  induction slots with
  | nil => cases hs
  | cons t slots ih =>
    obtain ⟨ht, hnodup⟩ := List.nodup_cons.mp hnodup
    rcases List.mem_cons.mp hs with rfl | hs
    · have hrest := held_eq_nil ht
      rw [held] at hrest ⊢
      rw [List.filter_cons_of_pos (by simp), List.flatMap_cons, hrest, List.append_nil]
    · have hne : t.environment ≠ s.environment := fun h => ht (h ▸ List.mem_map_of_mem hs)
      have hrest := ih hnodup hs
      rw [held] at hrest ⊢
      rw [List.filter_cons_of_neg (by simpa using hne), hrest]

theorem held_scan (hnodup : (probed.map Environment.name).Nodup)
    (hprobed : probed = front ++ e :: back) :
    held (scan firstOnly probed callNames).slots e.name =
      callNames.filter (takes firstOnly front e) := by
  rw [← map_environment_scan firstOnly probed callNames] at hnodup
  exact held_of_mem hnodup (mem_slots_scan_iff.mpr ⟨front, e, back, hprobed, rfl⟩)

theorem held_unordered (hnames : (environments.map Environment.name).Nodup)
    (he : e ∈ environments) :
    held (scan false environments callNames).slots e.name = callNames.filter e.contains := by
  obtain ⟨front, back, hsplit⟩ := List.append_of_mem he
  rw [held_scan hnames hsplit, takes_false]

theorem takes_nil (firstOnly : Bool) (e : Environment) : takes firstOnly [] e = e.contains := by
  funext c
  simp [takes]

/-- An environment takes nothing with an order that it would not take without one. -/
theorem filter_takes_sublist (firstOnly : Bool) (front : List Environment) (e : Environment)
    (callNames : List Text) :
    (callNames.filter (takes firstOnly front e)).Sublist (callNames.filter e.contains) := by
  apply List.monotone_filter_right
  intro c hc
  exact (Bool.and_eq_true_iff.mp hc).1

section DistinctNames
variable (hnames : (environments.map Environment.name).Nodup)
include hnames

/-- What is left out depends on the set of probed environments only. -/
theorem unavailable_scan_eq {o₁ o₂ : ScanOrder} {probed₁ probed₂ : List Environment}
    (hsame : ∀ e ∈ environments, o₁.asksFor e = o₂.asksFor e)
    (h₁ : o₁.probed environments = .ok probed₁) (h₂ : o₂.probed environments = .ok probed₂)
    (first₁ first₂ : Bool) (callNames : List Text) :
    (scan first₁ probed₁ callNames).unavailable = (scan first₂ probed₂ callNames).unavailable := by
  have hmem (e : Environment) : e ∈ probed₁ ↔ e ∈ probed₂ := by
    rw [mem_probed_iff hnames h₁, mem_probed_iff hnames h₂]
    apply and_congr_right
    intro he
    rw [hsame e he]
  have hany (c : Text) : probed₁.any (·.contains c) = probed₂.any (·.contains c) := by
    rw [Bool.eq_iff_iff, List.any_eq_true, List.any_eq_true]
    simp only [hmem]
  simp only [scan_eq, hany]

theorem held_sublist (hprobed : order.probed environments = .ok probed)
    (hnodup : (probed.map Environment.name).Nodup) (he : e ∈ environments) :
    (held (scan firstOnly probed callNames).slots e.name).Sublist
      (held (scan false environments callNames).slots e.name) := by
  by_cases hname : e.name ∈ probed.map Environment.name
  · have hprobe := mem_probed_of_name hnames hprobed he hname
    obtain ⟨front, back, hsplit⟩ := List.append_of_mem hprobe
    rw [held_scan hnodup hsplit, held_unordered hnames he]
    exact filter_takes_sublist firstOnly front e callNames
  · rw [← map_environment_scan firstOnly probed callNames] at hname
    rw [held_eq_nil hname]
    exact List.nil_sublist _

/-- Nothing is probed before the first environment, so it has all that it provides. -/
theorem held_head_eq (hprobed : order.probed environments = .ok (e :: back))
    (hnodup : ((e :: back).map Environment.name).Nodup) :
    held (scan firstOnly (e :: back) callNames).slots e.name =
      held (scan false environments callNames).slots e.name := by
  have he : e ∈ environments := mem_environments_of_mem_probed hprobed List.mem_cons_self
  rw [held_scan hnodup (List.nil_append _).symm, held_unordered hnames he, takes_nil]

end DistinctNames

/-- Orders that ask for the same environments leave out the same call names and record all others.
With an order that has no repeats, an environment has part of what it has without one, and the first
that is listed has the same. -/
theorem check_precedence (environments : List Environment) (callNames : List Text)
    (hnames : (environments.map Environment.name).Nodup) :
    (∀ o₁ o₂ a₁ a₂, (∀ e ∈ environments, o₁.asksFor e = o₂.asksFor e) →
      check environments callNames o₁ = .ok a₁ → check environments callNames o₂ = .ok a₂ →
      a₁.unavailable = a₂.unavailable ∧ Accounts callNames a₁ ∧ Accounts callNames a₂) ∧
    ∀ names a b, names.Nodup → check environments callNames (.ordered names) = .ok a →
      check environments callNames .unordered = .ok b →
      (∀ e ∈ environments, (held a.slots e.name).Sublist (held b.slots e.name)) ∧
      ∀ n ∈ names.head?, held a.slots n = held b.slots n := by
  constructor
  · intro o₁ o₂ a₁ a₂ hsame h₁ h₂
    obtain ⟨probed₁, hprobed₁, rfl⟩ := check_eq_ok_iff.mp h₁
    obtain ⟨probed₂, hprobed₂, rfl⟩ := check_eq_ok_iff.mp h₂
    exact ⟨unavailable_scan_eq hnames hsame hprobed₁ hprobed₂ _ _ callNames,
      accounts_scan _ _ _, accounts_scan _ _ _⟩
  · intro names a b hnodup ha hb
    obtain ⟨probed, hprobed, rfl⟩ := check_eq_ok_iff.mp ha
    obtain ⟨_, ⟨⟩, rfl⟩ := check_eq_ok_iff.mp hb
    have hlisted := map_name_of_forall₂ (probed_ordered_eq_ok_iff.mp hprobed)
    rw [← hlisted] at hnodup ⊢
    refine ⟨fun e he => held_sublist hnames hprobed hnodup he, fun n hn => ?_⟩
    cases probed with
    | nil => cases hn
    | cons e back =>
      cases hn
      exact held_head_eq hnames hprobed hnodup

/-- Two orders over two of three environments, with a repeat in the second order and in the call
names. -/
theorem check_precedence_of_swapped_names :
    let environments : List Environment :=
      [⟨"a", ["open", "clone"]⟩, ⟨"b", ["open", "fork"]⟩, ⟨"c", ["mmap"]⟩]
    let callNames : List Text := ["open", "fork", "mmap", "open"]
    let a₁ : Availability :=
      { slots := [⟨"b", ["open", "fork", "open"]⟩, ⟨"a", []⟩], unavailable := ["mmap"] }
    let a₂ : Availability :=
      { slots := [⟨"a", ["open", "open"]⟩, ⟨"b", ["fork"]⟩, ⟨"a", []⟩], unavailable := ["mmap"] }
    let b : Availability :=
      { slots := [⟨"a", ["open", "open"]⟩, ⟨"b", ["open", "fork", "open"]⟩, ⟨"c", ["mmap"]⟩]
        unavailable := [] }
    check environments callNames (.ordered ["b", "a"]) = .ok a₁ ∧
      check environments callNames (.ordered ["a", "b", "a"]) = .ok a₂ ∧
      check environments callNames .unordered = .ok b ∧
      a₁.unavailable = a₂.unavailable ∧ Accounts callNames a₁ ∧ Accounts callNames a₂ ∧
      (held a₁.slots "a").Sublist (held b.slots "a") ∧ held a₁.slots "b" = held b.slots "b" := by
  intro environments callNames a₁ a₂ b
  have h₁ : check environments callNames (.ordered ["b", "a"]) = .ok a₁ := by decide
  have h₂ : check environments callNames (.ordered ["a", "b", "a"]) = .ok a₂ := by decide
  have hb : check environments callNames .unordered = .ok b := by decide
  obtain ⟨hsame, hpart⟩ := check_precedence environments callNames (by decide)
  obtain ⟨hunavailable, haccounts₁, haccounts₂⟩ := hsame _ _ _ _ (by decide) h₁ h₂
  obtain ⟨hsublist, hfirst⟩ := hpart _ _ _ (by decide) h₁ hb
  exact ⟨h₁, h₂, hb, hunavailable, haccounts₁, haccounts₂, hsublist _ List.mem_cons_self,
    hfirst _ rfl⟩

end Availability

end CallManual
