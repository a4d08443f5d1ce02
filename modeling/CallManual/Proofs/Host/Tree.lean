import CallManual.Host.Tree
import CallManual.Proofs.Fallible
import CallManual.Proofs.Text.Lines

/-!
# What stands inside a directory

A name behind the path of a directory leads to what the directory holds under that name, however the
path is written. So reading a file by its path and listing the files of its directory speak of the
same entries, as long as each place has one entry only.
-/
namespace CallManual

variable {directory root x : Path} {f : Text} {place : Place} {t : Tree} {e : Entry}

theorem Text.byteLength_append (a b : Text) :
    Text.byteLength (a ++ b) = Text.byteLength a + Text.byteLength b := by
  have hsum (t : Text) : Text.byteLength t = (t.map Char.utf8Size).sum := by
    rw [List.sum_eq_foldl, List.foldl_map, Text.byteLength]
  rw [hsum, hsum, hsum, List.map_append, List.sum_append]

namespace Path

/-- A name that is followed as it is: it has no slash and does not start with a dot. -/
structure IsPlain (f : Text) : Prop where
  unbroken : '/' ∉ f
  visible : ∃ c rest, f = c :: rest ∧ c ≠ '.'

theorem IsPlain.ne_nil (h : IsPlain f) : f ≠ [] := by
  obtain ⟨c, rest, rfl, -⟩ := h.visible
  exact List.cons_ne_nil c rest

theorem IsPlain.head?_ne (h : IsPlain f) : f.head? ≠ some '/' :=
  fun hhead => h.unbroken (List.mem_of_mem_head? hhead)

theorem IsPlain.not_isSkipped (h : IsPlain f) : isSkipped f = false ∧ f ≠ ['.', '.'] := by
  obtain ⟨c, rest, rfl, hc⟩ := h.visible
  simp [isSkipped, hc]

/-- What stands in front of a name that is joined to a path. -/
def stem (p : Path) : Path := if p = [] ∨ p.getLast? = some '/' then p else p ++ ['/']

theorem join_of_slash (h : x.head? = some '/') (directory : Path) : join directory x = x := by
  obtain ⟨r, rfl⟩ := List.head?_eq_some_iff.mp h
  rfl

theorem join_of_relative (h : x.head? ≠ some '/') (directory : Path) :
    join directory x = stem directory ++ x := by
  unfold join stem
  split
  · simp at h
  · simp only [Bool.or_eq_true, List.isEmpty_iff, decide_eq_true_eq]
    split
    · rfl
    · rw [List.append_assoc, List.singleton_append]

theorem stem_append (h : x ≠ []) (a : Path) : stem (a ++ x) = a ++ stem x := by
  have hlast : (a ++ x).getLast? = x.getLast? := List.getLast?_append_of_ne_nil a h
  have hne : ¬ a ++ x = [] := by simp [h]
  simp only [stem, hlast, hne, h, false_or]
  split
  · rfl
  · rw [List.append_assoc]

theorem head?_stem_append (h : x ≠ []) (f : Text) : (stem x ++ f).head? = x.head? := by
  unfold stem
  split
  · rw [List.head?_append_of_ne_nil x h]
  · rw [List.append_assoc, List.head?_append_of_ne_nil x h]

/-- A name behind a path is the name behind the path as seen from any directory. -/
theorem join_join (hroot : root ≠ []) (hf : f.head? ≠ some '/') (directory : Path) :
    join directory (join root f) = join (join directory root) f := by
  rw [join_of_relative hf root, join_of_relative hf (join directory root)]
  by_cases hslash : root.head? = some '/'
  · have hjoin : (stem root ++ f).head? = some '/' := by rw [head?_stem_append hroot, hslash]
    rw [join_of_slash hslash, join_of_slash hjoin]
  · have hjoin : (stem root ++ f).head? ≠ some '/' := by rwa [head?_stem_append hroot]
    rw [join_of_relative hslash, join_of_relative hjoin, stem_append hroot, List.append_assoc]

end Path

namespace Tree

theorem walk_singleton (t : Tree) (place : Place) (f : Text) :
    t.walk place [f] = t.step place f := by
  unfold walk
  cases t.step place f <;> rfl

/-- Empty names lead nowhere else. -/
theorem eq_of_step_nil {q : Place} (h : t.step q [] = .ok place) : q = place := by
  unfold step at h
  split at h
  · cases h
  · cases h
  · rw [if_pos (by decide)] at h
    exact Except.ok.inj h

/-- A path with one more name goes one step further. -/
theorem walk_join (hx : x ≠ []) (hf : Path.IsPlain f)
    (h : t.walk [] (x.splitOn '/') = .ok place) :
    t.walk [] ((Path.join x f).splitOn '/') = t.step place f := by
  have hname : f.splitOn '/' = [f] := Text.splitOn_of_unbroken hf.unbroken
  rw [Path.join_of_relative hf.head?_ne, Path.stem]
  split
  · next hslash =>
    -- the slash at the end of the path stands for an empty name
    obtain ⟨y, rfl⟩ := List.getLast?_eq_some_iff.mp (hslash.resolve_left hx)
    rw [Text.splitOn_append_cons, List.splitOn_nil, walk_append] at h
    rw [List.append_assoc, List.singleton_append, Text.splitOn_append_cons, hname, walk_append]
    cases hy : t.walk [] (y.splitOn '/') with
    | error e => simp [hy, Except.bind] at h
    | ok q =>
      simp only [hy, Except.bind, walk_singleton] at h ⊢
      rw [eq_of_step_nil h]
  · rw [List.append_assoc, List.singleton_append, Text.splitOn_append_cons, hname, walk_append, h]
    exact walk_singleton t place f

theorem walk_of_locate (h : t.locate directory x = .ok place) :
    x ≠ [] ∧ t.walk [] ((Path.join directory x).splitOn '/') = .ok place := by
  unfold locate at h
  split at h
  · cases h
  · next hfault =>
    refine ⟨?_, h⟩
    rintro rfl
    simp [pathFault?] at hfault

theorem join_ne_nil (h : x ≠ []) (directory : Path) : Path.join directory x ≠ [] := by
  by_cases hslash : x.head? = some '/'
  · rwa [Path.join_of_slash hslash]
  · rw [Path.join_of_relative hslash]
    simp [h]

/-- What keeps a name behind a path from being looked up at all. -/
def nameFault? (root : Path) (f : Text) : Option IoError :=
  match pathFault? (Path.join root f) with
  | some e => some e
  | none => if maxNameLength < Text.byteLength f then some .nameTooLong else none

/-- What comes of reading an entry. -/
def readEntry : Option Entry → Except IoError (List UInt8)
  | some (.file bytes) => .ok bytes
  | some .directory => .error .isDirectory
  | none => .error .notFound

theorem nameFault?_ne_notFound (h : f ≠ []) : nameFault? root f ≠ some .notFound := by
  have hne := join_ne_nil h root
  unfold nameFault? pathFault?
  simp only [List.isEmpty_iff, hne, if_false]
  grind

theorem nameFault?_eq_none_iff (h : f ≠ []) : nameFault? root f = none ↔
    '\x00' ∉ Path.join root f ∧ Text.byteLength (Path.join root f) ≤ maxPathLength ∧
      Text.byteLength f ≤ maxNameLength := by
  have hne := join_ne_nil h root
  unfold nameFault? pathFault?
  simp only [List.elem_eq_mem, decide_eq_true_eq, List.isEmpty_iff, hne, if_false,
    ← Nat.not_lt]
  split_ifs <;> simp_all

/-- A shorter name can be looked up where a longer one can. -/
theorem nameFault?_of_append {g : Text} (hf : f ≠ []) (hhead : f.head? ≠ some '/')
    (h : nameFault? root (f ++ g) = none) : nameFault? root f = none := by
  have hhead' : (f ++ g).head? ≠ some '/' := by rwa [List.head?_append_of_ne_nil f hf]
  have hne : f ++ g ≠ [] := by simp [hf]
  rw [nameFault?_eq_none_iff hne, Path.join_of_relative hhead', ← List.append_assoc] at h
  rw [nameFault?_eq_none_iff hf, Path.join_of_relative hhead]
  obtain ⟨hnul, hpath, hname⟩ := h
  rw [Text.byteLength_append] at hpath hname
  refine ⟨fun hmem => hnul (List.mem_append_left g hmem), ?_, ?_⟩ <;> omega

theorem step_plain (hdir : t.get? place = some .directory) (hf : Path.IsPlain f) :
    t.step place f = if maxNameLength < Text.byteLength f then .error .nameTooLong
      else if (t.get? (place ++ [f])).isSome then .ok (place ++ [f]) else .error .notFound := by
  obtain ⟨hskip, hdots⟩ := hf.not_isSkipped
  simp only [step, hdir, hskip, Bool.false_eq_true, if_false, hdots]

section Located
variable (hroot : t.locate directory root = .ok place) (hdir : t.get? place = some .directory)
  (hf : Path.IsPlain f)
include hroot hdir hf

/-- Reading by path reads what stands in the directory. -/
theorem read_join : t.read directory (Path.join root f) =
    match nameFault? root f with
    | some e => .error e
    | none => readEntry (t.get? (place ++ [f])) := by
  obtain ⟨hne, hwalk⟩ := walk_of_locate hroot
  have hstep : t.walk [] ((Path.join directory (Path.join root f)).splitOn '/') =
      t.step place f := by
    rw [Path.join_join hne hf.head?_ne]
    exact walk_join (join_ne_nil hne directory) hf hwalk
  unfold read locate nameFault?
  cases pathFault? (Path.join root f) with
  | some e => rfl
  | none =>
    simp only [hstep, step_plain hdir hf]
    by_cases hlong : maxNameLength < Text.byteLength f
    · simp only [hlong, if_true]
    · cases hentry : t.get? (place ++ [f]) with
      | none => simp [hlong, readEntry]
      | some e => cases e <;> simp [hlong, hentry, readEntry]

theorem read_eq_ok_iff {bytes : List UInt8} : t.read directory (Path.join root f) = .ok bytes ↔
    nameFault? root f = none ∧ t.get? (place ++ [f]) = some (.file bytes) := by
  rw [read_join hroot hdir hf]
  cases nameFault? root f with
  | some e => simp
  | none => cases t.get? (place ++ [f]) using readEntry.fun_cases <;> simp [readEntry]

theorem read_eq_notFound_iff : t.read directory (Path.join root f) = .error .notFound ↔
    nameFault? root f = none ∧ t.get? (place ++ [f]) = none := by
  have hfault : nameFault? root f ≠ some .notFound := nameFault?_ne_notFound hf.ne_nil
  rw [read_join hroot hdir hf]
  cases hname : nameFault? root f with
  | some e =>
    rw [hname] at hfault
    simpa using hfault
  | none => cases t.get? (place ++ [f]) using readEntry.fun_cases <;> simp [readEntry]

end Located

/-- No place has two entries. -/
def WellFormed (t : Tree) : Prop := (t.entries.map Prod.fst).Nodup

theorem wellFormed_empty : ({} : Tree).WellFormed := List.nodup_nil

theorem WellFormed.set (h : t.WellFormed) (place : Place) (e : Entry) :
    (t.set place e).WellFormed := by
  have hnew : place ∉ (t.entries.filter fun x => x.1 != place).map Prod.fst := by
    rw [List.mem_map]
    rintro ⟨x, hx, rfl⟩
    simp at hx
  exact List.nodup_cons.mpr ⟨hnew, h.sublist (List.filter_sublist.map Prod.fst)⟩

/-- Sets place after place, so that the last entry for a place counts. -/
def setAll (t : Tree) (entries : List (Place × Entry)) : Tree :=
  entries.foldl (fun t q => t.set q.1 q.2) t

theorem WellFormed.setAll (h : t.WellFormed) (entries : List (Place × Entry)) :
    (t.setAll entries).WellFormed := by
  induction entries generalizing t with
  | nil => exact h
  | cons q entries ih => exact ih (h.set q.1 q.2)

theorem get?_concat (t : Tree) (place : Place) (f : Text) :
    t.get? (place ++ [f]) = t.entries.lookup (place ++ [f]) := by
  simp [get?]

theorem fileInside?_eq_some_iff {q : Place × Entry} :
    fileInside? place q = some f ↔ ∃ bytes, q = (place ++ [f], .file bytes) := by
  obtain ⟨q, _ | bytes⟩ := q
  · simp [fileInside?]
  · have hq : q.dropLast = place ∧ q.getLast? = some f ↔ q = place ++ [f] := by
      constructor
      · rintro ⟨rfl, hlast⟩
        exact (List.dropLast_append_getLast? f hlast).symm
      · rintro rfl
        simp
    simp [fileInside?, hq]

theorem mem_filesIn_iff (ht : t.WellFormed) (hroot : t.locate directory root = .ok place) :
    f ∈ t.filesIn directory root ↔ ∃ bytes, t.get? (place ++ [f]) = some (.file bytes) := by
  simp only [filesIn, hroot, List.mem_filterMap, fileInside?_eq_some_iff, get?_concat]
  constructor
  · rintro ⟨q, hq, bytes, rfl⟩
    exact ⟨bytes, lookup_eq_some_of_mem ht hq⟩
  · rintro ⟨bytes, hbytes⟩
    obtain ⟨front, back, hentries, -⟩ := List.lookup_eq_some_iff.mp hbytes
    exact ⟨_, by simp [hentries], bytes, rfl⟩

end Tree

end CallManual
