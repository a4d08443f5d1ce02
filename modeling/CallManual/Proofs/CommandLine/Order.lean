import CallManual.CommandLine.Run
import CallManual.Proofs.Settings.Layers
import Mathlib.Data.List.Nodup

/-!
# Where an order comes from

Settings tidy the order that they are given, and a scan makes its order of the names that it is
given. Both keep the names as they first stand in the list, so tidying once more changes nothing and
it does not matter whether an order comes from a settings file or from the command line.
-/
namespace CallManual
open Text AvailabilitySettings

variable {xs ys zs names : List Text} {n : Text}

/-- The second list has the entries of the first, each once, in the order in which they first stand
there. -/
structure ListsFirsts (xs ys : List Text) : Prop where
  mem : ∀ n, n ∈ ys ↔ n ∈ xs
  rising : ys.Pairwise fun m n => xs.idxOf m < xs.idxOf n

theorem ListsFirsts.nodup (h : ListsFirsts xs ys) : ys.Nodup := by
  apply h.rising.imp
  rintro m n hlt rfl
  exact Nat.lt_irrefl _ hlt

/-- Only one list is in that order. -/
theorem ListsFirsts.unique (hy : ListsFirsts xs ys) (hz : ListsFirsts xs zs) : ys = zs := by
  have hperm : ys.Perm zs := (List.perm_ext_iff_of_nodup hy.nodup hz.nodup).mpr fun n => by
    rw [hy.mem, hz.mem]
  refine hperm.eq_of_pairwise (fun m n _ _ hmn hnm => ?_) hy.rising hz.rising
  exact absurd hnm (Nat.lt_asymm hmn)

/-- Leaving out what was seen before and erasing repeats afterwards come to the same. -/
theorem keepFirst_eq_eraseDups (seen xs : List Text) :
    keepFirst id seen xs = (xs.filter fun n => !seen.elem n).eraseDups := by
  fun_induction keepFirst id seen xs with
  | case1 => rfl
  | case2 seen x xs hx ih => rw [List.filter_cons_of_neg (by simpa using hx), ih]
  | case3 seen x xs hx ih =>
    rw [List.filter_cons_of_pos (by simpa using hx), List.eraseDups_cons, List.filter_filter, ih]
    congr 3
    funext n
    simp [Bool.not_or, Bool.beq_eq_decide_eq]

/-- Behind an entry that it does not have, a list stays in the order of first places. -/
theorem rising_cons {x : Text} (hne : ∀ n ∈ ys, n ≠ x)
    (h : ys.Pairwise fun m n => xs.idxOf m < xs.idxOf n) :
    ys.Pairwise fun m n => (x :: xs).idxOf m < (x :: xs).idxOf n := by
  refine h.imp_of_mem fun hm hn hlt => ?_
  rw [List.idxOf_cons_ne xs (hne _ hm).symm, List.idxOf_cons_ne xs (hne _ hn).symm]
  exact Nat.succ_lt_succ hlt

theorem rising_keepFirst (seen xs : List Text) :
    (keepFirst id seen xs).Pairwise fun m n => xs.idxOf m < xs.idxOf n := by
  fun_induction keepFirst id seen xs with
  | case1 => exact List.Pairwise.nil
  | case2 seen x xs hx ih =>
    refine rising_cons (fun n hn => ?_) ih
    rintro rfl
    exact notMem_seen_of_mem_keepFirst hn (by simpa using hx)
  | case3 seen x xs hx ih =>
    have hne (n : Text) (hn : n ∈ keepFirst id (x :: seen) xs) : n ≠ x := by
      rintro rfl
      exact notMem_seen_of_mem_keepFirst hn List.mem_cons_self
    refine List.pairwise_cons.mpr ⟨fun n hn => ?_, rising_cons hne ih⟩
    rw [List.idxOf_cons_self, List.idxOf_cons_ne xs (hne n hn).symm]
    exact Nat.succ_pos _

theorem listsFirsts_keepFirst (xs : List Text) : ListsFirsts xs (keepFirst id [] xs) where
  mem n := by simp [keepFirst_eq_eraseDups, List.mem_eraseDups]
  rising := rising_keepFirst [] xs

theorem tidyOrder_eq_iff : tidyOrder names = ys ↔
    ListsFirsts ((names.map trim).filter fun n => !n.isEmpty) ys := by
  have htidy := listsFirsts_keepFirst ((names.map trim).filter fun n => !n.isEmpty)
  constructor
  · rintro rfl
    exact htidy
  · exact htidy.unique

theorem mem_tidyOrder_iff : n ∈ tidyOrder names ↔ n ≠ [] ∧ n ∈ names.map trim := by
  rw [(tidyOrder_eq_iff.mp rfl).mem, List.mem_filter, and_comm]
  simp

theorem ofNames_eq (names : List Text) : ScanOrder.ofNames names =
    if tidyOrder names = [] then .unordered else .ordered (tidyOrder names) := by
  have hkept : tidyOrder names =
      ((names.map trim).filter fun n => !n.isEmpty).eraseDups := by
    rw [tidyOrder, keepFirst_eq_eraseDups]
    simp
  rw [ScanOrder.ofNames, ← hkept]
  cases tidyOrder names <;> simp

theorem tidyOrder_tidyOrder (names : List Text) : tidyOrder (tidyOrder names) = tidyOrder names :=
  (wellFormed_tidy { order := names }).tidyOrder_eq_self

theorem ofNames_tidyOrder (names : List Text) :
    ScanOrder.ofNames (tidyOrder names) = ScanOrder.ofNames names := by
  rw [ofNames_eq, ofNames_eq, tidyOrder_tidyOrder]

namespace CommandLine

variable {m : Type → Type} [Monad m]

theorem runTask_order (host : Host m) (log : Logger m) (common : CommonOptions) (s : Settings)
    (p : SettingsPatch) (names : List Text) (definitions : Text)
    (objects lists : List (Text × Text)) (json : Bool) :
    runTask host log common (s.merge { p with order := some names })
        (.availability definitions objects lists none json) =
      runTask host log common (s.merge p)
        (.availability definitions objects lists (some names) json) := by
  have hlibraries : (s.merge { p with order := some names }).availability.libraries =
      (s.merge p).availability.libraries := rfl
  have horder : ScanOrder.ofNames (s.merge { p with order := some names }).availability.order =
      ScanOrder.ofNames names := ofNames_tidyOrder names
  simp only [runTask, Option.getD_none, Option.getD_some, hlibraries, horder]

/-- Settings and scans make the same order of a list of names: the names without white space around
them that are not blank, as they first stand in the list. Of a tidied order a scan makes that order,
so a run that finds an order in its settings does the same as one that is given it. -/
theorem order_agrees (names : List Text) :
    (ScanOrder.ofNames names =
      if tidyOrder names = [] then .unordered else .ordered (tidyOrder names)) ∧
    (∀ ns, tidyOrder names = ns ↔ ListsFirsts ((names.map trim).filter fun n => !n.isEmpty) ns) ∧
    (∀ n, n ∈ tidyOrder names ↔ n ≠ [] ∧ n ∈ names.map trim) ∧
    (ScanOrder.ofNames (tidyOrder names) =
      if tidyOrder names = [] then .unordered else .ordered (tidyOrder names)) ∧
    ∀ (host : Host m) log common s p definitions objects lists json,
      runTask host log common (Settings.merge s { p with order := some names })
          (.availability definitions objects lists none json) =
        runTask host log common (Settings.merge s p)
          (.availability definitions objects lists (some names) json) := by
  refine ⟨ofNames_eq names, fun _ => tidyOrder_eq_iff, fun _ => mem_tidyOrder_iff, ?_, ?_⟩
  · rw [ofNames_tidyOrder, ofNames_eq]
  · intro host log common s p definitions objects lists json
    exact runTask_order host log common s p names definitions objects lists json

/-- Names that become equal or blank without their white space, which need not be a space. -/
example : tidyOrder [" b", "", "a\u00a0", "\t", "b", "a"] = ["b", "a"] ∧
    ScanOrder.ofNames ["\u2003", ""] = .unordered := by
  decide

end CommandLine

end CallManual
