import CallManual.Host.Machine
import CallManual.Proofs.Host.Tree
import Mathlib.Tactic.SplitIfs

/-!
# What is written is read back

A walk leads only to what is there, through directories all the way. Writing a file takes away no
entry and no directory, so the same path leads to the file afterwards and what is read is what was
written.
-/
namespace CallManual

variable {t t' : Tree} {directory p : Path} {place q : Place} {name : Text} {names : List Text}
  {bytes : List UInt8}

namespace Tree

theorem step_eq_ok_iff : t.step place name = .ok q ↔ t.get? place = some .directory ∧
    (Path.isSkipped name = true ∧ q = place ∨
      Path.isSkipped name = false ∧ name = ['.', '.'] ∧ q = place.dropLast ∨
      Path.isSkipped name = false ∧ name ≠ ['.', '.'] ∧ ¬ maxNameLength < Text.byteLength name ∧
        (t.get? (place ++ [name])).isSome ∧ q = place ++ [name]) := by
  unfold step
  split
  · next h => simp [h]
  · next h => simp [h]
  · next h =>
    have hok (x : Place) : (Except.ok x : Except IoError Place) = .ok q ↔ q = x := by
      rw [Except.ok.injEq, eq_comm]
    by_cases hskip : Path.isSkipped name
    · simp only [h, hskip, hok, if_true, true_and, Bool.true_eq_false, false_and, or_false]
    · by_cases hdots : name = ['.', '.']
      · subst hdots
        have hplain : Path.isSkipped ['.', '.'] = false := by decide
        simp only [h, hplain, hok, Bool.false_eq_true, if_false, if_true, true_and, ne_eq, not_true,
          false_and, and_false, false_or, or_false]
      · by_cases hlong : maxNameLength < Text.byteLength name
        · simp [h, hskip, hdots, hlong]
        · by_cases hentry : (t.get? (place ++ [name])).isSome <;>
            simp [h, hskip, hdots, hlong, hentry, hok]

/-- A name that is missing inside what is there could stand there. -/
theorem of_step_eq_notFound (hplace : (t.get? place).isSome)
    (h : t.step place name = .error .notFound) : t.get? place = some .directory ∧
      Path.isSkipped name = false ∧ name ≠ ['.', '.'] ∧ ¬ maxNameLength < Text.byteLength name ∧
      t.get? (place ++ [name]) = none := by
  unfold step at h
  split at h
  · next hnone => simp [hnone] at hplace
  · cases h
  · next hdir =>
    split_ifs at h with hskip hdots hlong hentry
    · cases h
    · exact ⟨hdir, by simpa using hskip, hdots, hlong, by simpa using hentry⟩

/-! ## Walks -/

/-- What is there, with directories all the way to it. -/
structure Reached (t : Tree) (place : Place) : Prop where
  entry : (t.get? place).isSome
  above : ∀ q, q <+: place → q ≠ place → t.get? q = some .directory

theorem reached_root (t : Tree) : t.Reached [] where
  entry := rfl
  above _ hq hne := absurd (List.prefix_nil.mp hq) hne

theorem Reached.dropLast (h : t.Reached place) : t.Reached place.dropLast := by
  rcases List.eq_nil_or_concat place with rfl | ⟨front, name, rfl⟩
  · exact h
  · rw [List.concat_eq_append, List.dropLast_concat]
    have hfront (q : Place) (hq : q <+: front) : t.get? q = some .directory := by
      refine h.above q ?_ ?_
      · exact List.concat_eq_append ▸ hq.trans (List.prefix_append front [name])
      · rintro rfl
        exact absurd hq.length_le (by simp)
    exact ⟨by rw [hfront front List.prefix_rfl]; rfl, fun q hq _ => hfront q hq⟩

theorem Reached.step (h : t.Reached place) (hstep : t.step place name = .ok q) : t.Reached q := by
  obtain ⟨hdir, ⟨-, rfl⟩ | ⟨-, -, rfl⟩ | ⟨-, -, -, hentry, rfl⟩⟩ := step_eq_ok_iff.mp hstep
  · exact h
  · exact h.dropLast
  · refine ⟨hentry, fun q hq hne => ?_⟩
    by_cases hplace : q = place
    · exact hplace ▸ hdir
    · exact h.above q ((List.prefix_concat_iff.mp hq).resolve_left hne) hplace

theorem Reached.walk (h : t.Reached place) (hwalk : t.walk place names = .ok q) : t.Reached q := by
  induction names generalizing place with
  | nil => exact Except.ok.inj hwalk ▸ h
  | cons name names ih =>
    rw [Tree.walk] at hwalk
    cases hstep : t.step place name with
    | error e => simp [hstep] at hwalk
    | ok next =>
      simp only [hstep] at hwalk
      exact ih (h.step hstep) hwalk

/-- Directories stay directories, and no entry is taken away. -/
structure Keeps (t t' : Tree) : Prop where
  directory : ∀ q, t.get? q = some .directory → t'.get? q = some .directory
  entry : ∀ q, (t.get? q).isSome → (t'.get? q).isSome

theorem Keeps.step (h : Keeps t t') (hstep : t.step place name = .ok q) :
    t'.step place name = .ok q := by
  obtain ⟨hdir, hnext⟩ := step_eq_ok_iff.mp hstep
  refine step_eq_ok_iff.mpr ⟨h.directory place hdir, hnext.imp_right (Or.imp_right ?_)⟩
  rintro ⟨hskip, hdots, hlong, hentry, rfl⟩
  exact ⟨hskip, hdots, hlong, h.entry _ hentry, rfl⟩

/-- A walk that succeeds is not led astray by what was added. -/
theorem Keeps.walk (h : Keeps t t') (hwalk : t.walk place names = .ok q) :
    t'.walk place names = .ok q := by
  induction names generalizing place with
  | nil => exact hwalk
  | cons name names ih =>
    rw [Tree.walk] at hwalk ⊢
    cases hstep : t.step place name with
    | error e => simp [hstep] at hwalk
    | ok next =>
      simp only [hstep] at hwalk
      simp only [h.step hstep]
      exact ih hwalk

/-- A file may take the place of a file or of nothing. -/
theorem keeps_set (h : t.get? place ≠ some .directory) (bytes : List UInt8) :
    Keeps t (t.set place (.file bytes)) := by
  have hne : place ≠ [] := by
    rintro rfl
    exact h rfl
  constructor
  · intro q hq
    have hother : q ≠ place := by
      rintro rfl
      exact h hq
    rw [get?_set_of_ne hother, hq]
  · intro q hq
    by_cases hplace : q = place
    · rw [hplace, get?_set_self hne]
      rfl
    · rwa [get?_set_of_ne hplace]

/-! ## Writing -/

theorem pathFault?_ne_notFound (hp : p ≠ []) : pathFault? p ≠ some .notFound := by
  unfold pathFault?
  simp only [List.isEmpty_iff, hp, if_false]
  split_ifs <;> simp

/-- A file is written in the place of one that is there, or under a name that is missing where the
names above it lead. -/
theorem target_cases (hp : p ≠ []) (h : t.target directory p = .ok place) :
    pathFault? p = none ∧
      (t.walk [] ((Path.join directory p).splitOn '/') = .ok place ∧
          (∃ old, t.get? place = some (.file old)) ∨
        ∃ names name front, (Path.join directory p).splitOn '/' = names ++ [name] ∧
          t.walk [] names = .ok front ∧ t.step front name = .error .notFound ∧
          place = front ++ [name]) := by
  unfold target at h
  split at h
  · next found hlocate =>
    obtain ⟨-, hwalk⟩ := walk_of_locate hlocate
    split at h
    · next old hfile =>
      cases h
      refine ⟨?_, Or.inl ⟨hwalk, old, hfile⟩⟩
      unfold locate at hlocate
      split at hlocate
      · cases hlocate
      · assumption
    · cases h
  · next hlocate =>
    unfold locate at hlocate
    split at hlocate
    · next e hfault =>
      cases hlocate
      exact absurd hfault (pathFault?_ne_notFound hp)
    · next hfault =>
      split at h
      · cases h
      · next name above hnames =>
        have hsplit : (Path.join directory p).splitOn '/' = above.reverse ++ [name] := by
          rw [← List.reverse_cons, ← hnames, List.reverse_reverse]
        split at h
        · cases h
        · next front hwalk =>
          split_ifs at h
          cases h
          rw [hsplit, walk_append, hwalk, Except.bind, walk_singleton] at hlocate
          exact ⟨hfault, Or.inr ⟨_, name, front, hsplit, hwalk, hlocate, rfl⟩⟩
  · cases h

/-- Once a file is written its path leads to it. -/
theorem walk_of_target (hp : p ≠ []) (h : t.target directory p = .ok place) (bytes : List UInt8) :
    place ≠ [] ∧
      (t.set place (.file bytes)).walk [] ((Path.join directory p).splitOn '/') = .ok place := by
  obtain ⟨-, ⟨hwalk, old, hfile⟩ | ⟨names, name, front, hsplit, hwalk, hstep, rfl⟩⟩ :=
    target_cases hp h
  · refine ⟨?_, (keeps_set (by simp [hfile]) bytes).walk hwalk⟩
    rintro rfl
    cases hfile
  · have hreached := (reached_root t).walk hwalk
    obtain ⟨hdir, hskip, hdots, hlong, hnone⟩ := of_step_eq_notFound hreached.entry hstep
    have hkeeps : Keeps t (t.set (front ++ [name]) (.file bytes)) :=
      keeps_set (by simp [hnone]) bytes
    have hnew : ((t.set (front ++ [name]) (.file bytes)).get? (front ++ [name])).isSome := by
      rw [get?_set_self (by simp)]
      rfl
    refine ⟨by simp, ?_⟩
    rw [hsplit, walk_append, hkeeps.walk hwalk, Except.bind, walk_singleton]
    exact step_eq_ok_iff.mpr ⟨hkeeps.directory front hdir,
      Or.inr (Or.inr ⟨hskip, hdots, hlong, hnew, rfl⟩)⟩

/-- What was written to a file is what is read at its path. -/
theorem read_of_write (h : t.write directory p bytes = .ok t') :
    t'.read directory p = .ok bytes := by
  unfold write at h
  split_ifs at h with hp
  rw [List.isEmpty_iff] at hp
  cases htarget : t.target directory p with
  | error e => simp [htarget, Except.map] at h
  | ok place =>
    simp only [htarget, Except.map, Except.ok.injEq] at h
    subst h
    obtain ⟨hfault, -⟩ := target_cases hp htarget
    obtain ⟨hne, hwalk⟩ := walk_of_target hp htarget bytes
    simp only [read, locate, hfault, hwalk, get?_set_self hne]

end Tree

end CallManual
