import CallManual.Resolution.Schedule
import Mathlib.Algebra.Ring.Nat

/-!
# What a report holds

A report keeps the order of the names on both of its sides: what resolved is among the resolutions,
what did not among the defects under its own name, and every name is counted once.
-/
namespace CallManual

variable {f : Text → Answer} {callNames : List Text}

/-- The defect that a call name ends in, if it does. -/
def Defect.of? (callName : Text) : Answer → Option Defect
  | .ok _ => none
  | .error a => some ⟨callName, a.message⟩

namespace Report

/-- The report of looking up one name after another. -/
def sequential (f : Text → Answer) (callNames : List Text) : Report :=
  ofLookups (callNames.map fun n => (n, f n))

theorem sequential_cons_ok {n : Text} {x : Resolution} (h : f n = .ok x) (callNames : List Text) :
    sequential f (n :: callNames) =
      ⟨x :: (sequential f callNames).resolutions, (sequential f callNames).defects⟩ := by
  simp [sequential, ofLookups, h]

theorem sequential_cons_error {n : Text} {a : Ambiguity} (h : f n = .error a)
    (callNames : List Text) : sequential f (n :: callNames) =
      ⟨(sequential f callNames).resolutions,
        ⟨n, a.message⟩ :: (sequential f callNames).defects⟩ := by
  simp [sequential, ofLookups, h]

theorem resolutions_sequential (f : Text → Answer) (callNames : List Text) :
    (sequential f callNames).resolutions = callNames.filterMap fun n => (f n).toOption := by
  induction callNames with
  | nil => rfl
  | cons n callNames ih =>
    cases h : f n with
    | ok x => simp [sequential_cons_ok h, ih, h, Except.toOption]
    | error a => simp [sequential_cons_error h, ih, h, Except.toOption]

theorem defects_sequential (f : Text → Answer) (callNames : List Text) :
    (sequential f callNames).defects = callNames.filterMap fun n => Defect.of? n (f n) := by
  induction callNames with
  | nil => rfl
  | cons n callNames ih =>
    cases h : f n with
    | ok x => simp [sequential_cons_ok h, ih, h, Defect.of?]
    | error a => simp [sequential_cons_error h, ih, h, Defect.of?]

theorem callNames_resolutions_sequential (hf : ∀ n x, f n = .ok x → x.callName = n)
    (callNames : List Text) : (sequential f callNames).resolutions.map Resolution.callName =
      callNames.filter fun n => (f n).isOk := by
  induction callNames with
  | nil => rfl
  | cons n callNames ih =>
    cases h : f n with
    | ok x => simp [sequential_cons_ok h, ih, h, hf n x h, Except.isOk, Except.toBool]
    | error a => simp [sequential_cons_error h, ih, h, Except.isOk, Except.toBool]

theorem callNames_defects_sequential (f : Text → Answer) (callNames : List Text) :
    (sequential f callNames).defects.map Defect.callName =
      callNames.filter fun n => !(f n).isOk := by
  induction callNames with
  | nil => rfl
  | cons n callNames ih =>
    cases h : f n with
    | ok x => simp [sequential_cons_ok h, ih, h, Except.isOk, Except.toBool]
    | error a => simp [sequential_cons_error h, ih, h, Except.isOk, Except.toBool]

/-- Every resolution has one of the kinds. -/
theorem sum_count (r : Report) : (OutcomeKind.all.map r.count).sum = r.resolutions.length := by
  obtain ⟨resolutions, defects⟩ := r
  induction resolutions with
  | nil => rfl
  | cons x resolutions ih =>
    simp only [OutcomeKind.all, count, List.map_cons, List.map_nil, List.sum_cons, List.sum_nil,
      List.countP_cons, List.length_cons] at ih ⊢
    cases x.kind <;> simp <;> omega

theorem length_sequential (f : Text → Answer) (callNames : List Text) :
    (sequential f callNames).resolutions.length + (sequential f callNames).defects.length =
      callNames.length := by
  induction callNames with
  | nil => rfl
  | cons n callNames ih =>
    cases h : f n with
    | ok x => simp [sequential_cons_ok h]; omega
    | error a => simp [sequential_cons_error h]; omega

end Report

end CallManual
