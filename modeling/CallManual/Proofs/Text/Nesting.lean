import CallManual.Text.Basic
import Mathlib.Data.List.Infix

/-!
# Nesting of parentheses

A text is followed from a number of open parentheses. More open ones at the start only add to what
is open later, and a text that never uses the last open one does as well without it.
-/
namespace CallManual.Text

variable {a b t front : Text} {n m : ℕ} {c : Char}

/-- How many parentheses are open behind a text, from `n` open ones on; none when one closes that
is not open. -/
def nesting : ℕ → Text → Option ℕ
  | n, [] => some n
  | n, c :: t =>
    if c = '(' then nesting (n + 1) t
    else if c = ')' then if n = 0 then none else nesting (n - 1) t
    else nesting n t

def WellNested (t : Text) : Prop := nesting 0 t = some 0

instance : DecidablePred WellNested := fun t => inferInstanceAs (Decidable (nesting 0 t = some 0))

def isParen (c : Char) : Bool := c = '(' || c = ')'

@[simp] theorem nesting_nil (n : ℕ) : nesting n [] = some n := rfl

@[simp] theorem nesting_open (n : ℕ) (t : Text) : nesting n ('(' :: t) = nesting (n + 1) t := rfl

@[simp] theorem nesting_close_zero (t : Text) : nesting 0 (')' :: t) = none := rfl

@[simp] theorem nesting_close_succ (n : ℕ) (t : Text) :
    nesting (n + 1) (')' :: t) = nesting n t := rfl

theorem nesting_cons (n : ℕ) (hc : isParen c = false) (t : Text) :
    nesting n (c :: t) = nesting n t := by
  simp only [isParen, Bool.or_eq_false_iff, decide_eq_false_iff_not] at hc
  simp [nesting, hc]

/-- A character opens one, closes one, or leaves all as it is. -/
theorem nesting_cases {P : Char → Prop} (hopen : P '(') (hclose : P ')')
    (hother : ∀ c, isParen c = false → P c) (c : Char) : P c := by
  by_cases ho : c = '('
  · exact ho ▸ hopen
  · by_cases hc : c = ')'
    · exact hc ▸ hclose
    · exact hother c (by simp [isParen, ho, hc])

theorem nesting_append (n : ℕ) (a b : Text) :
    nesting n (a ++ b) = (nesting n a).bind fun m => nesting m b := by
  induction a generalizing n with
  | nil => rfl
  | cons c a ih =>
    induction c using nesting_cases with
    | hopen => simpa using ih (n + 1)
    | hclose =>
      cases n with
      | zero => rfl
      | succ n => simpa using ih n
    | hother c hc => rw [List.cons_append, nesting_cons n hc, nesting_cons n hc, ih]

theorem nesting_of_no_paren (n : ℕ) (h : ∀ c ∈ t, isParen c = false) : nesting n t = some n := by
  induction t with
  | nil => rfl
  | cons c t ih =>
    rw [nesting_cons n (h c List.mem_cons_self), ih fun d hd => h d (List.mem_cons_of_mem _ hd)]

/-- More open parentheses at the start are as many more behind the text. -/
theorem nesting_add (h : nesting n t = some m) (k : ℕ) : nesting (n + k) t = some (m + k) := by
  induction t generalizing n with
  | nil =>
    obtain rfl := Option.some.inj h
    rfl
  | cons c t ih =>
    induction c using nesting_cases with
    | hopen =>
      rw [nesting_open, Nat.add_right_comm]
      exact ih h
    | hclose =>
      cases n with
      | zero => cases h
      | succ n =>
        rw [Nat.add_right_comm, nesting_close_succ]
        exact ih h
    | hother c hc =>
      rw [nesting_cons _ hc] at h ⊢
      exact ih h

theorem nesting_filter (n : ℕ) (t : Text) : nesting n (t.filter isParen) = nesting n t := by
  induction t generalizing n with
  | nil => rfl
  | cons c t ih =>
    induction c using nesting_cases with
    | hopen => simpa [List.filter_cons, isParen] using ih (n + 1)
    | hclose =>
      cases n with
      | zero => simp [isParen]
      | succ n => simpa [List.filter_cons, isParen] using ih n
    | hother c hc => rw [List.filter_cons, if_neg (by simp [hc]), nesting_cons n hc, ih]

/-- Without a closing parenthesis a text can only open. -/
theorem le_of_nesting (hc : ')' ∉ t) (h : nesting n t = some m) : n ≤ m := by
  induction t generalizing n with
  | nil => exact (Option.some.inj h).le
  | cons c t ih =>
    rw [List.mem_cons, not_or] at hc
    induction c using nesting_cases with
    | hopen => exact (Nat.le_succ n).trans (ih hc.2 h)
    | hclose => exact absurd rfl hc.1
    | hother c hp =>
      rw [nesting_cons n hp] at h
      exact ih hc.2 h

/-- Without an opening parenthesis a text can only close, which nothing open allows. -/
theorem nesting_zero_of_no_open (ho : '(' ∉ t) (h : nesting 0 t = some m) : ')' ∉ t := by
  induction t with
  | nil => simp
  | cons c t ih =>
    rw [List.mem_cons, not_or] at ho
    induction c using nesting_cases with
    | hopen => exact absurd rfl ho.1
    | hclose => simp at h
    | hother c hc =>
      rw [nesting_cons 0 hc] at h
      rw [List.mem_cons, not_or]
      refine ⟨?_, ih ho.2 h⟩
      rintro rfl
      simp [isParen] at hc

end CallManual.Text
