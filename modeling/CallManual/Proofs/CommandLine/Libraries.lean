import CallManual.CommandLine.Run
import CallManual.Host.Machine
import CallManual.Proofs.Availability.Placement
import CallManual.Proofs.Host.Yields
import CallManual.Proofs.Settings.Changes

/-!
# The libraries of a run

A library of the command line takes the place of every earlier one of its name and moves to the end.
What is left after all of them is the last library of each name, so each name is loaded once and an
order may list any of them.
-/
namespace CallManual

namespace Environment

variable {m : Type → Type} [Monad m] [LawfulMonad m]

theorem ensures_load (host : Host m) (log : Logger m) (l : Library) :
    Ensures (load host log l) fun r => ∀ e, r = .ok e → e.name = l.name := by
  unfold load
  cases l.kind with
  | sharedObject =>
    apply (ensures_true _).bind
    intro completion _
    split
    · exact ensures_pure (by simp)
    · apply (ensures_true _).bind
      intro _ _
      apply ensures_pure
      rintro e ⟨⟩
      rfl
    · exact ensures_pure (by simp)
    · exact ensures_pure (by simp)
  | symbolList =>
    apply (ensures_true _).bind
    intro text _
    split
    · exact ensures_pure (by simp)
    · apply ensures_pure
      rintro e ⟨⟩
      rfl

/-- Loaded environments have the names that were asked for, in their order. -/
theorem ensures_loadAll (host : Host m) (log : Logger m) (ls : List Library) :
    Ensures (loadAll host log ls) fun r =>
      ∀ es, r = .ok es → es.map Environment.name = ls.map Library.name := by
  induction ls with
  | nil =>
    apply ensures_pure
    rintro es ⟨⟩
    rfl
  | cons l ls ih =>
    apply (ensures_load host log l).bind
    intro first hfirst
    split
    · exact ensures_pure (by simp)
    · apply ih.bind
      intro rest hrest
      split
      · exact ensures_pure (by simp)
      · apply ensures_pure
        rintro es ⟨⟩
        rw [List.map_cons, List.map_cons, hfirst _ rfl, hrest _ rfl]

end Environment

namespace CommandLine

variable {ls given : List Library} {l : Library}

/-- The libraries without those that a later one of their name follows. -/
def lastOfEach : List Library → List Library
  | [] => []
  | l :: ls => if ls.any (fun k => k.name == l.name) then lastOfEach ls else l :: lastOfEach ls

theorem lastOfEach_cons (l : Library) (ls : List Library) : lastOfEach (l :: ls) =
    if l.name ∈ ls.map Library.name then lastOfEach ls else l :: lastOfEach ls := by
  simp [lastOfEach]

theorem mem_names_lastOfEach {n : Text} :
    n ∈ (lastOfEach ls).map Library.name ↔ n ∈ ls.map Library.name := by
  induction ls with
  | nil => rfl
  | cons l ls ih =>
    rw [lastOfEach_cons]
    split
    · next hlater =>
      rw [ih, List.map_cons, List.mem_cons]
      constructor
      · exact Or.inr
      · rintro (rfl | h)
        · exact hlater
        · exact h
    · rw [List.map_cons, List.map_cons, List.mem_cons, List.mem_cons, ih]

theorem nodup_lastOfEach (ls : List Library) : ((lastOfEach ls).map Library.name).Nodup := by
  induction ls with
  | nil => exact List.nodup_nil
  | cons l ls ih =>
    rw [lastOfEach_cons]
    split
    · exact ih
    · next hlater => exact List.nodup_cons.mpr ⟨mt mem_names_lastOfEach.mp hlater, ih⟩

theorem lastOfEach_eq_self (h : (ls.map Library.name).Nodup) : lastOfEach ls = ls := by
  induction ls with
  | nil => rfl
  | cons l ls ih =>
    obtain ⟨hl, hls⟩ := List.nodup_cons.mp h
    rw [lastOfEach_cons, if_neg hl, ih hls]

/-- One more library takes the place of the one that its name had. -/
theorem lastOfEach_concat (ls : List Library) (l : Library) :
    lastOfEach (ls ++ [l]) = (lastOfEach ls).filter (fun k => k.name != l.name) ++ [l] := by
  induction ls with
  | nil => simp [lastOfEach]
  | cons k ls ih =>
    rw [List.cons_append, lastOfEach_cons, lastOfEach_cons, ih]
    by_cases hlater : k.name ∈ ls.map Library.name
    · rw [if_pos hlater, if_pos (by simp [hlater])]
    · by_cases hname : k.name = l.name
      · rw [if_pos (by simp [hname]), if_neg hlater, List.filter_cons_of_neg (by simp [hname])]
      · rw [if_neg (by simpa [hname] using hlater), if_neg hlater,
          List.filter_cons_of_pos (by simpa using hname), List.cons_append]

theorem foldl_eq_lastOfEach (seen given : List Library) :
    given.foldl (fun ls l => ls.filter (fun k => k.name != l.name) ++ [l]) (lastOfEach seen) =
      lastOfEach (seen ++ given) := by
  induction given generalizing seen with
  | nil => rw [List.append_nil, List.foldl_nil]
  | cons l given ih =>
    rw [List.foldl_cons, ← lastOfEach_concat, ih, List.append_assoc, List.singleton_append]

/-- The libraries of the command line: shared objects, then lists. -/
def givenLibraries (objects lists : List (Text × Path)) : List Library :=
  objects.map (fun (n, p) => ⟨n, p, .sharedObject⟩) ++ lists.map fun (n, p) => ⟨n, p, .symbolList⟩

theorem libraries_eq_lastOfEach {configured : List Library}
    (h : (configured.map Library.name).Nodup) (objects lists : List (Text × Path)) :
    libraries configured objects lists =
      lastOfEach (configured ++ givenLibraries objects lists) := by
  rw [← foldl_eq_lastOfEach, lastOfEach_eq_self h]
  rfl

theorem mem_names_given {objects lists : List (Text × Path)} {n : Text} :
    n ∈ (givenLibraries objects lists).map Library.name ↔
      n ∈ objects.map Prod.fst ∨ n ∈ lists.map Prod.fst := by
  simp [givenLibraries]

/-- The libraries of a run are those of its settings, then the shared objects and the lists of the
command line, each name with the last of its libraries. Once they are loaded, an order fails just
when it lists a name that none of the three sources has. -/
theorem libraries_override {m : Type → Type} [Monad m] [LawfulMonad m] (host : Host m)
    (log : Logger m) (s : Settings) (objects lists : List (Text × Path))
    (h : (s.availability.libraries.map Library.name).Nodup) :
    let configured := s.availability.libraries
    let ls := libraries configured objects lists
    ls = lastOfEach (configured ++ givenLibraries objects lists) ∧
    (ls.map Library.name).Nodup ∧
    (∀ n, n ∈ ls.map Library.name ↔ n ∈ configured.map Library.name ∨
      n ∈ objects.map Prod.fst ∨ n ∈ lists.map Prod.fst) ∧
    Ensures (Environment.loadAll host log ls) fun r => ∀ es, r = .ok es → ∀ callNames names,
      (∃ n, Availability.check es callNames (.ordered names) = .error n) ↔
        ∃ n ∈ names, n ∉ configured.map Library.name ∧
          n ∉ objects.map Prod.fst ∧ n ∉ lists.map Prod.fst := by
  intro configured ls
  have heq : ls = lastOfEach (configured ++ givenLibraries objects lists) :=
    libraries_eq_lastOfEach h objects lists
  have hmem (n : Text) : n ∈ ls.map Library.name ↔ n ∈ configured.map Library.name ∨
      n ∈ objects.map Prod.fst ∨ n ∈ lists.map Prod.fst := by
    rw [heq, mem_names_lastOfEach, List.map_append, List.mem_append, mem_names_given]
  refine ⟨heq, heq ▸ nodup_lastOfEach _, hmem, ?_⟩
  apply (Environment.ensures_loadAll host log ls).imp
  intro r hr es hes callNames names
  rw [Availability.exists_check_eq_error_iff, hr es hes]
  simp only [hmem, not_or]

/-- Settings with two libraries of one name, of which a run replaces the one that stays. -/
theorem libraries_override_of_repeated_names :
    let settings : Settings := Settings.merge {} {
      libraries := some [⟨some "libc", some "/a", none⟩, ⟨some " libc", some "/b", none⟩,
        ⟨some "musl", some "/m", some "list"⟩] }
    let ls : List Library := [⟨"musl", "/m", .symbolList⟩, ⟨"libc", "/c", .sharedObject⟩,
      ⟨"extra", "/x", .symbolList⟩]
    let machine : Machine := { files := ⟨[(["m"], .file [97]), (["x"], .file [])]⟩ }
    let host := Machine.host (fun _ _ => .ok (.exited 0 [32, 84, 32, 98] [])) 1
    let es : List Environment := [⟨"musl", ["a"]⟩, ⟨"libc", ["b"]⟩, ⟨"extra", []⟩]
    (settings.availability.libraries.map Library.name).Nodup ∧
      libraries settings.availability.libraries [("libc", "/z"), ("libc", "/c")] [("extra", "/x")] =
        ls ∧
      ((Environment.loadAll host Logger.silent ls).run machine).1 = .ok es ∧
      ∃ n, Availability.check es ["open"] (.ordered ["libc", "libd"]) = .error n := by
  intro settings ls machine host es
  have hnodup : (settings.availability.libraries.map Library.name).Nodup :=
    (Settings.wellFormed_merge _ _).availability.libraries_nodup
  obtain ⟨heq, -, -, hload⟩ := libraries_override host Logger.silent settings
    [("libc", "/z"), ("libc", "/c")] [("extra", "/x")] hnodup
  have hls : libraries settings.availability.libraries [("libc", "/z"), ("libc", "/c")]
      [("extra", "/x")] = ls := by
    rw [heq]
    decide
  have hes : ((Environment.loadAll host Logger.silent ls).run machine).1 = .ok es := by rfl
  rw [hls] at hload
  refine ⟨hnodup, hls, hes, (hload.run machine es hes _ _).mpr ?_⟩
  exact ⟨"libd".toList, by decide, by decide, by decide, by decide⟩

end CommandLine

end CallManual
