import Mathlib.Data.List.Forall2

/-!
# Computations that may fail

A chain of computations succeeds exactly when each of its links does. A look-up finds what a list
has under a key, when no key is there twice.
-/
namespace CallManual

variable {α β ε : Type} {x : Except ε α} {xs : List α} {ys : List β} {a : α} {b : β}

theorem bind_eq_ok_iff {f : α → Except ε β} : x >>= f = .ok b ↔ ∃ a, x = .ok a ∧ f a = .ok b := by
  cases x <;> simp [bind, Except.bind]

theorem bind_of_eq_ok (h : x = .ok a) (f : α → Except ε β) : x >>= f = f a := by
  rw [h]
  rfl

theorem mapM_eq_ok_iff {f : α → Except ε β} :
    xs.mapM f = .ok ys ↔ List.Forall₂ (fun x y => f x = .ok y) xs ys := by
  induction xs generalizing ys with
  | nil => cases ys <;> simp [pure, Except.pure]
  | cons x xs ih =>
    rw [List.mapM_cons, bind_eq_ok_iff]
    simp only [bind_eq_ok_iff, ih]
    constructor
    · rintro ⟨y, hy, zs, hzs, h⟩
      cases h
      exact .cons hy hzs
    · rintro (_ | ⟨hy, hzs⟩)
      exact ⟨_, hy, _, hzs, rfl⟩

theorem mapM_cons_of_eq_ok {f : α → Except ε β} {x : α} {e : ε} (h : f x = .ok b) :
    (x :: xs).mapM f = .error e ↔ xs.mapM f = .error e := by
  rw [List.mapM_cons, h]
  cases xs.mapM f <;> simp [bind, Except.bind, pure, Except.pure]

/-- A chain fails with the error of its first link that fails. -/
theorem mapM_eq_error_iff {f : α → Except ε β} {e : ε} : xs.mapM f = .error e ↔
    ∃ front x back, xs = front ++ x :: back ∧ (∀ y ∈ front, ∃ b, f y = .ok b) ∧ f x = .error e := by
  constructor
  · intro h
    induction xs with
    | nil => cases h
    | cons x xs ih =>
      cases hx : f x with
      | error e' =>
        rw [List.mapM_cons, hx] at h
        cases h
        exact ⟨[], x, xs, rfl, by simp, hx⟩
      | ok b =>
        obtain ⟨front, y, back, rfl, hfront, hy⟩ := ih ((mapM_cons_of_eq_ok hx).mp h)
        exact ⟨x :: front, y, back, rfl, List.forall_mem_cons.mpr ⟨⟨b, hx⟩, hfront⟩, hy⟩
  · rintro ⟨front, x, back, rfl, hfront, hx⟩
    induction front with
    | nil =>
      rw [List.nil_append, List.mapM_cons, hx]
      rfl
    | cons y front ih =>
      obtain ⟨⟨b, hy⟩, hfront⟩ := List.forall_mem_cons.mp hfront
      exact (mapM_cons_of_eq_ok hy).mpr (ih hfront)

theorem exists_of_mapM_eq_error {f : α → Except ε β} {e : ε} (h : xs.mapM f = .error e) :
    ∃ x ∈ xs, f x = .error e := by
  obtain ⟨front, x, back, rfl, -, hx⟩ := mapM_eq_error_iff.mp h
  exact ⟨x, by simp, hx⟩

theorem mapM_congr_of_forall₂ {f : α → Except ε β} {zs : List α}
    (h : List.Forall₂ (fun x z => f x = f z) xs zs) : xs.mapM f = zs.mapM f := by
  induction h with
  | nil => rfl
  | cons hx _ ih => rw [List.mapM_cons, List.mapM_cons, hx, ih]

theorem exists_of_forall₂ {R : α → β → Prop} (h : List.Forall₂ R xs ys) (hb : b ∈ ys) :
    ∃ a ∈ xs, R a b := by
  induction h with
  | nil => cases hb
  | cons hxy _ ih =>
    rcases List.mem_cons.mp hb with rfl | hb
    · exact ⟨_, List.mem_cons_self, hxy⟩
    · obtain ⟨x, hx, hr⟩ := ih hb
      exact ⟨x, List.mem_cons_of_mem _ hx, hr⟩

theorem exists_forall₂_iff {R : α → β → Prop} :
    (∃ ys, List.Forall₂ R xs ys) ↔ ∀ x ∈ xs, ∃ y, R x y := by
  induction xs with
  | nil => simp
  | cons x xs ih =>
    rw [List.forall_mem_cons, ← ih]
    constructor
    · rintro ⟨_, _ | ⟨hy, hys⟩⟩
      exact ⟨⟨_, hy⟩, _, hys⟩
    · rintro ⟨⟨y, hy⟩, ys, hys⟩
      exact ⟨y :: ys, .cons hy hys⟩

theorem lookup_eq_some_of_mem {κ : Type} [BEq κ] [LawfulBEq κ] {l : List (κ × β)} {k : κ}
    (hl : (l.map Prod.fst).Nodup) (h : (k, b) ∈ l) : l.lookup k = some b := by
  induction l with
  | nil => cases h
  | cons m l ih =>
    obtain ⟨hm, hl⟩ := List.nodup_cons.mp hl
    rcases List.mem_cons.mp h with rfl | h
    · exact List.lookup_cons_self
    · have hne : (k == m.1) = false := by
        simpa using fun hk : k = m.1 => hm (hk ▸ List.mem_map_of_mem h)
      rw [List.lookup_cons, hne]
      exact ih hl h

end CallManual
