import Mathlib.Data.List.Forall2
import Mathlib.Tactic.Choose

/-!
# What actions end with

An action yields a value when it always ends with that value, whatever else it does, and it ensures
a property when it always ends with a value that has it. What a program makes of such actions is
known as well. Both are instances of a guarantee, and so is what an action ends with in the states
that have a property which the action keeps.
-/
namespace CallManual

variable {m : Type → Type} [Monad m] {α β : Type} {x : m α} {a : α} {b : β}
  {p : α → Prop} {q : β → Prop}

def Yields (x : m α) (a : α) : Prop := x = (fun _ => a) <$> x

/-- An action that can be seen as one whose values come with the property. -/
def Ensures (x : m α) (p : α → Prop) : Prop := ∃ y : m { a // p a }, x = Subtype.val <$> y

variable [LawfulMonad m]

theorem yields_pure (a : α) : Yields (pure a : m α) a := by
  simp [Yields]

theorem Yields.bind {f : α → m β} (hx : Yields x a) (hf : Yields (f a) b) :
    Yields (x >>= f) b := by
  have hconst : x >>= f = x >>= fun _ => f a := by
    rw [hx, bind_map_left, bind_map_left]
  rw [Yields, hconst, map_bind]
  congr 1
  funext _
  exact hf

/-- What is done before has no part in the result. -/
theorem Yields.bind_after {γ : Type} {before : m γ} {f : α → m β}
    (hx : Yields (before >>= fun _ => x) a) (hf : Yields (f a) b) :
    Yields (before >>= fun _ => x >>= f) b := by
  rw [← bind_assoc]
  exact hx.bind hf

theorem ensures_pure (h : p a) : Ensures (pure a : m α) p := ⟨pure ⟨a, h⟩, by simp⟩

theorem ensures_true (x : m α) : Ensures x fun _ => True :=
  ⟨(fun a => ⟨a, trivial⟩) <$> x, by simp⟩

theorem Ensures.bind {f : α → m β} (hx : Ensures x p) (hf : ∀ a, p a → Ensures (f a) q) :
    Ensures (x >>= f) q := by
  obtain ⟨y, rfl⟩ := hx
  choose g hg using fun a : { a // p a } => hf a.1 a.2
  refine ⟨y >>= g, ?_⟩
  rw [bind_map_left, map_bind]
  congr 1
  funext a
  exact hg a

theorem Ensures.imp {q : α → Prop} (hx : Ensures x p) (h : ∀ a, p a → q a) : Ensures x q := by
  obtain ⟨y, rfl⟩ := hx
  exact ⟨(fun a => ⟨a.1, h a.1 a.2⟩) <$> y, by simp⟩

/-- What yields a value ensures that it is this value. -/
theorem yields_iff_ensures : Yields x a ↔ Ensures x (· = a) := by
  constructor
  · intro h
    refine ⟨(fun _ => ⟨a, rfl⟩) <$> x, ?_⟩
    rw [← comp_map]
    exact h
  · rintro ⟨y, rfl⟩
    rw [Yields, ← comp_map]
    congr 1
    funext b
    exact b.2

/-- A sense in which actions end with values that have a property. It holds of what is returned, and
passes from an action to what is done with its value. -/
structure Guarantee (m : Type → Type) [Monad m] where
  Holds : {α : Type} → m α → (α → Prop) → Prop
  holds_pure : ∀ {α : Type} {a : α} {p : α → Prop}, p a → Holds (pure a) p
  holds_bind : ∀ {α β : Type} {x : m α} {f : α → m β} {p : α → Prop} {q : β → Prop},
    Holds x p → (∀ a, p a → Holds (f a) q) → Holds (x >>= f) q

namespace Guarantee

/-- Whatever the state is. -/
def always : Guarantee m := ⟨Ensures, ensures_pure, Ensures.bind⟩

variable {σ : Type}

/-- In the states that have a property, which they keep. -/
def within (inv : σ → Prop) : Guarantee (StateM σ) where
  Holds x p := ∀ s, inv s → p (x.run s).1 ∧ inv (x.run s).2
  holds_pure h _ hs := ⟨h, hs⟩
  holds_bind hx hf s hs := hf _ (hx s hs).1 _ (hx s hs).2

variable {v : Guarantee m}

/-- Whatever the action ends with. -/
abbrev Allows (v : Guarantee m) (x : m α) : Prop := v.Holds x fun _ => True

omit [LawfulMonad m] in
theorem allows_pure (a : α) : v.Allows (pure a) := v.holds_pure trivial

theorem imp (hx : v.Holds x p) {q : α → Prop} (h : ∀ a, p a → q a) : v.Holds x q := by
  rw [← bind_pure x]
  exact v.holds_bind hx fun a ha => v.holds_pure (h a ha)

theorem mapM {f : α → m β} {g : α → β → Prop} (h : ∀ a, v.Holds (f a) (g a)) (xs : List α) :
    v.Holds (xs.mapM f) (List.Forall₂ g xs) := by
  induction xs with
  | nil => exact v.holds_pure .nil
  | cons a xs ih =>
    rw [List.mapM_cons]
    exact v.holds_bind (h a) fun b hb => v.holds_bind ih fun bs hbs => v.holds_pure (.cons hb hbs)

omit [LawfulMonad m] in
/-- A loop that only acts on each of its items. -/
theorem loop {f : α → m PUnit} (h : ∀ a, v.Allows (f a)) (xs : List α) :
    v.Allows (forIn xs PUnit.unit fun a _ => do f a; pure (.yield ⟨⟩)) := by
  induction xs with
  | nil => exact allows_pure _
  | cons a xs ih =>
    rw [List.forIn_cons]
    refine v.holds_bind (p := fun r => r = ForInStep.yield PUnit.unit) ?_ ?_
    · exact v.holds_bind (h a) fun _ _ => v.holds_pure rfl
    · rintro _ rfl
      exact ih

end Guarantee

theorem Ensures.run {σ : Type} {x : StateM σ α} (h : Ensures x p) (s : σ) : p (x.run s).1 := by
  obtain ⟨y, rfl⟩ := h
  exact (y.run s).1.2

end CallManual
