import CallManual.Host.Machine
import CallManual.Proofs.Host.Tree
import CallManual.Proofs.Text.Utf8
import CallManual.Settings.Discovery
import Mathlib.Logic.Function.Iterate

/-!
# The nearest settings

Climbing from a path makes it shorter with every step, so it comes to an end. A search that looks
into each directory on the way finds the settings file of the first directory that has one. What is
discovered are the settings of that file, and the defaults when there is none. A file that says
nothing new gives the defaults too.
-/
namespace CallManual

namespace Path

variable {p q : Path}

/-- The path that is reached after so many steps to the parent. -/
def above? (p : Path) : ℕ → Option Path
  | 0 => some p
  | i + 1 => (above? p i).bind parent?

theorem above?_succ (p : Path) (i : ℕ) :
    above? p (i + 1) = (parent? p).bind fun q => above? q i := by
  induction i with
  | zero => simp [above?]
  | succ i ih =>
    rw [above?, ih]
    cases parent? p <;> rfl

theorem chain_of_none (h : parent? p = none) : chain p = [p] := by
  rw [chain]
  split <;> simp_all

theorem chain_of_some (h : parent? p = some q) : chain p = p :: chain q := by
  rw [chain]
  split <;> simp_all

theorem getElem?_chain (p : Path) (i : ℕ) : (chain p)[i]? = above? p i := by
  induction i generalizing p with
  | zero => cases h : parent? p <;> simp [chain_of_none, chain_of_some, h, above?]
  | succ i ih =>
    rw [above?_succ]
    cases h : parent? p with
    | none => simp [chain_of_none h]
    | some q => simp [chain_of_some h, ih]

end Path

/-- What can be seen of files: which paths lead to one, and what is read at a path. -/
structure FileView where
  isFile : Path → Bool
  read : Path → Except IoError (List UInt8)

variable {σ α β : Type} {s : σ}

/-- In this state the host answers questions about files as described, and they change nothing. -/
structure Host.Shows (host : Host (StateM σ)) (s : σ) (files : FileView) : Prop where
  isFile : ∀ p, (host.isFile p).run s = (files.isFile p, s)
  read : ∀ p, (host.read p).run s = (files.read p, s)

theorem Machine.shows (programs : Programs) (processors : ℕ) (s : Machine) :
    (host programs processors).Shows s
      ⟨s.files.isFile s.directory, s.files.read s.directory⟩ where
  isFile _ := rfl
  read _ := rfl

theorem run_bind_of_answer {x : StateM σ α} {a : α} (h : x.run s = (a, s)) (f : α → StateM σ β) :
    (x >>= f).run s = (f a).run s := by
  rw [StateT.run_bind, h]
  rfl

/-- The text that is read where these bytes are. -/
def textOf : Except IoError (List UInt8) → Except IoError Text
  | .error e => .error e
  | .ok bytes =>
    match Text.ofUtf8? bytes with
    | some t => .ok t
    | none => .error .notUtf8

theorem Host.Shows.readText {host : Host (StateM σ)} {files : FileView} (h : host.Shows s files)
    (p : Path) : (host.readText p).run s = (textOf (files.read p), s) := by
  rw [Host.readText, run_bind_of_answer (h.read p)]
  cases files.read p with
  | error e => rfl
  | ok bytes =>
    simp only [textOf]
    cases Text.ofUtf8? bytes <;> rfl

namespace Settings

variable {host : Host (StateM σ)} {files : FileView} {isFile : Path → Bool} {start p : Path}
  {ds : List Path} {k : ℕ}

/-- Where a search starts: at a directory, or at the parent of a file. -/
def origin? (isFile : Path → Bool) (start : Path) : Option Path :=
  if isFile start then Path.parent? start else some start

/-- The directory that a search comes to after so many others. -/
def directory? (isFile : Path → Bool) (start : Path) (i : ℕ) : Option Path :=
  (origin? isFile start).bind fun d => Path.above? d i

/-- The settings file of the nearest directory that has one. -/
def IsNearest (isFile : Path → Bool) (start : Path) : Option Path → Prop
  | some p => ∃ i d, directory? isFile start i = some d ∧ p = Path.join d fileName ∧
      isFile p = true ∧
      ∀ j < i, ∀ e, directory? isFile start j = some e → isFile (Path.join e fileName) = false
  | none => ∀ i d, directory? isFile start i = some d → isFile (Path.join d fileName) = false

/-- A search is at a directory, or it has ended with what it found. -/
inductive Search
  | searching (d : Path)
  | ended (found : Option Path)

def Search.startingAt (isFile : Path → Bool) (start : Path) : Search :=
  match origin? isFile start with
  | none => .ended none
  | some d => .searching d

/-- One round looks into a directory and goes on to its parent. -/
def Search.round (isFile : Path → Bool) : Search → Search
  | .searching d =>
    if isFile (Path.join d fileName) then .ended (some (Path.join d fileName))
    else match Path.parent? d with
      | none => .ended none
      | some q => .searching q
  | .ended found => .ended found

theorem searchPath_eq (isFile : Path → Bool) (start : Path) :
    searchPath (isFile start) start = (origin? isFile start).elim [] Path.chain := by
  unfold searchPath origin?
  cases isFile start with
  | false => rfl
  | true => cases Path.parent? start <;> rfl

theorem getElem?_searchPath (isFile : Path → Bool) (start : Path) (i : ℕ) :
    (searchPath (isFile start) start)[i]? = directory? isFile start i := by
  rw [searchPath_eq, directory?]
  cases origin? isFile start with
  | none => rfl
  | some d => exact Path.getElem?_chain d i

/-- The first settings file in these directories. -/
def firstIn (isFile : Path → Bool) (ds : List Path) : Option Path :=
  (ds.map fun d => Path.join d fileName).find? isFile

theorem firstIn_cons (isFile : Path → Bool) (d : Path) (ds : List Path) :
    firstIn isFile (d :: ds) = if isFile (Path.join d fileName) then some (Path.join d fileName)
      else firstIn isFile ds := by
  rw [firstIn, List.map_cons, List.find?_cons, firstIn]
  cases isFile (Path.join d fileName) <;> rfl

theorem firstIn_eq_some_iff : firstIn isFile ds = some p ↔
    ∃ (i : ℕ) (d : Path), ds[i]? = some d ∧ p = Path.join d fileName ∧ isFile p = true ∧
      ∀ j < i, ∀ e, ds[j]? = some e → isFile (Path.join e fileName) = false := by
  rw [firstIn, List.find?_eq_some_iff_getElem]
  constructor
  · rintro ⟨hp, i, hi, rfl, hbefore⟩
    rw [List.length_map] at hi
    refine ⟨i, ds[i], List.getElem?_eq_getElem hi, by simp, hp, fun j hj e he => ?_⟩
    obtain ⟨hlt, rfl⟩ := List.getElem?_eq_some_iff.mp he
    simpa using hbefore j hj
  · rintro ⟨i, d, hd, rfl, hp, hbefore⟩
    obtain ⟨hi, rfl⟩ := List.getElem?_eq_some_iff.mp hd
    refine ⟨hp, i, by simpa using hi, by simp, fun j hj => ?_⟩
    simpa using hbefore j hj _ (List.getElem?_eq_getElem (Nat.lt_trans hj hi))

theorem firstIn_eq_none_iff : firstIn isFile ds = none ↔
    ∀ (i : ℕ) (d : Path), ds[i]? = some d → isFile (Path.join d fileName) = false := by
  rw [firstIn, List.find?_eq_none, List.forall_mem_map]
  simp only [List.mem_iff_getElem?, Bool.not_eq_true, forall_exists_index]
  exact forall_comm

theorem firstIn_searchPath_eq_iff (found : Option Path) :
    firstIn isFile (searchPath (isFile start) start) = found ↔ IsNearest isFile start found := by
  cases found with
  | none => simp only [firstIn_eq_none_iff, getElem?_searchPath, IsNearest]
  | some p => simp only [firstIn_eq_some_iff, getElem?_searchPath, IsNearest]

namespace Search

/-- What the search will have found when it ends. -/
def answer (isFile : Path → Bool) : Search → Option Path
  | searching d => firstIn isFile (Path.chain d)
  | ended found => found

/-- A bound on the rounds to go. -/
def roundsLeft : Search → ℕ
  | searching d => d.length + 1
  | ended _ => 0

theorem answer_round (isFile : Path → Bool) (x : Search) :
    (round isFile x).answer isFile = x.answer isFile := by
  cases x with
  | ended found => rfl
  | searching d =>
    rw [round]
    change answer isFile _ = firstIn isFile (Path.chain d)
    cases hparent : Path.parent? d with
    | none =>
      rw [Path.chain_of_none hparent, firstIn_cons]
      split <;> rfl
    | some q =>
      rw [Path.chain_of_some hparent, firstIn_cons]
      split <;> rfl

/-- A round ends the search or leads to a shorter path. -/
theorem roundsLeft_round (isFile : Path → Bool) (x : Search) :
    (round isFile x).roundsLeft ≤ x.roundsLeft - 1 := by
  cases x with
  | ended found => exact Nat.le_refl 0
  | searching d =>
    rw [round]
    split
    · exact Nat.zero_le _
    · cases hparent : Path.parent? d with
      | none => exact Nat.zero_le _
      | some q => exact Path.parent?_length hparent

theorem iterate_round {x : Search} (h : x.roundsLeft ≤ k) :
    (round isFile)^[k] x = .ended (x.answer isFile) := by
  induction k generalizing x with
  | zero =>
    cases x with
    | ended found => rfl
    | searching d => exact absurd h (Nat.not_succ_le_zero _)
  | succ k ih =>
    have hleft := roundsLeft_round isFile x
    rw [Function.iterate_succ_apply, ih (by omega), answer_round]

theorem answer_startingAt (isFile : Path → Bool) (start : Path) :
    (startingAt isFile start).answer isFile =
      firstIn isFile (searchPath (isFile start) start) := by
  rw [searchPath_eq, startingAt]
  cases origin? isFile start <;> rfl

theorem roundsLeft_startingAt (isFile : Path → Bool) (start : Path) :
    (startingAt isFile start).roundsLeft ≤ start.length + 1 := by
  unfold startingAt origin?
  cases isFile start with
  | false => exact Nat.le_refl _
  | true =>
    cases hparent : Path.parent? start with
    | none => exact Nat.zero_le _
    | some d =>
      have hshorter := Path.parent?_length hparent
      simp only [roundsLeft, if_true]
      omega

end Search

theorem run_firstFile (h : host.Shows s files) (ds : List Path) :
    (firstFile host ds).run s = (firstIn files.isFile ds, s) := by
  induction ds with
  | nil => rfl
  | cons d ds ih =>
    rw [firstFile, run_bind_of_answer (h.isFile _), firstIn_cons]
    split
    · rfl
    · exact ih

theorem run_find (h : host.Shows s files) (start : Path) : (find host start).run s =
    (firstIn files.isFile (searchPath (files.isFile start) start), s) := by
  rw [find, run_bind_of_answer (h.isFile start), run_firstFile h]

/-- The settings that a file with this content gives. -/
def ofContent (p : Path) (content : Except IoError (List UInt8)) : Except SettingsError Settings :=
  match textOf content with
  | .error e => .error (.unreadable p e)
  | .ok t => mergeFrom {} t p

theorem run_load (h : host.Shows s files) (p : Path) :
    (load host p).run s = (ofContent p (files.read p), s) := by
  rw [load, run_bind_of_answer (h.readText p), ofContent]
  cases textOf (files.read p) <;> rfl

theorem run_discover (h : host.Shows s files) (start : Path) : (discover host start).run s =
    ((firstIn files.isFile (searchPath (files.isFile start) start)).elim (.ok {})
      fun p => ofContent p (files.read p), s) := by
  rw [discover, run_bind_of_answer (run_find h start)]
  cases firstIn files.isFile (searchPath (files.isFile start) start) with
  | none => rfl
  | some p => exact run_load h p

section Content
variable {content : Except IoError (List UInt8)} {text : Text} {x : Settings}

theorem ofContent_of_text (h : textOf content = .ok text) (p : Path) :
    ofContent p content = (mergeText? {} text).elim (.error (.invalid p)) .ok := by
  simp only [ofContent, h, mergeFrom]
  cases mergeText? {} text <;> rfl

theorem ofContent_of_error {e : IoError} (h : textOf content = .error e) (p : Path) :
    ofContent p content = .error (.unreadable p e) := by
  simp only [ofContent, h]

theorem ofContent_eq_ok_iff : ofContent p content = .ok x ↔
    ∃ text, textOf content = .ok text ∧ mergeText? {} text = some x := by
  have helim (merged : Option Settings) :
      merged.elim (.error (.invalid p)) .ok = (.ok x : Except SettingsError Settings) ↔
        merged = some x := by
    cases merged <;> simp
  cases h : textOf content with
  | error e => simp only [ofContent_of_error h, reduceCtorEq, false_and, exists_false]
  | ok text => simp only [ofContent_of_text h, helim, Except.ok.injEq, exists_eq_left']

end Content

/-- A search comes to an end, for which as many rounds are enough as the path has characters and one
more. It finds the settings file of the nearest directory that has one. Without such a directory the
defaults are discovered. Otherwise the file that was found is loaded, and what is discovered depends
on what that file holds and on no other; these are the defaults again when the file adds nothing to
them. -/
theorem find_nearest (host : Host (StateM σ)) (s : σ) (files : FileView) (h : host.Shows s files)
    (start : Path) :
    ∃ found, (find host start).run s = (found, s) ∧
      (∀ k, start.length < k →
        (Search.round files.isFile)^[k] (.startingAt files.isFile start) = .ended found) ∧
      (∀ r, found = r ↔ IsNearest files.isFile start r) ∧
      ((discover host start).run s = (.ok {}, s) ↔ found = none ∨ ∃ p text, found = some p ∧
        textOf (files.read p) = .ok text ∧ mergeText? {} text = some {}) ∧
      ∀ p, found = some p → (discover host start).run s = (load host p).run s ∧
        (∀ text, textOf (files.read p) = .ok text → (discover host start).run s =
          ((mergeText? {} text).elim (.error (.invalid p)) .ok, s)) ∧
        (∀ e, textOf (files.read p) = .error e →
          (discover host start).run s = (.error (.unreadable p e), s)) ∧
        ∀ (other : Host (StateM σ)) (t : σ) (view : FileView), other.Shows t view →
          view.isFile = files.isFile → view.read p = files.read p →
          ((discover other start).run t).1 = ((discover host start).run s).1 := by
  refine ⟨firstIn files.isFile (searchPath (files.isFile start) start), run_find h start,
    fun k hk => ?_, firstIn_searchPath_eq_iff, ?_, fun p hfound => ?_⟩
  · have hleft := Search.roundsLeft_startingAt files.isFile start
    rw [Search.iterate_round (by omega), Search.answer_startingAt]
  · rw [run_discover h]
    cases firstIn files.isFile (searchPath (files.isFile start) start) with
    | none => simp only [Option.elim_none, true_or]
    | some p =>
      have hpair {x y : Except SettingsError Settings} : (x, s) = (y, s) ↔ x = y := by simp
      refine hpair.trans ?_
      simp only [Option.elim_some, ofContent_eq_ok_iff, reduceCtorEq, false_or, Option.some.injEq,
        exists_and_left, exists_eq_left']
  · have hdiscover : (discover host start).run s = (ofContent p (files.read p), s) := by
      rw [run_discover h, hfound, Option.elim_some]
    refine ⟨by rw [hdiscover, run_load h], fun text ht => ?_, fun e he => ?_, ?_⟩
    · rw [hdiscover, ofContent_of_text ht]
    · rw [hdiscover, ofContent_of_error he]
    · intro other t view hshows hview hread
      rw [hdiscover, run_discover hshows, hview, hfound, Option.elim_some, hread]

/-- Two dots are climbed over like a name. Above the settings file that is found there is another,
and nothing but the first need be readable. -/
theorem find_nearest_of_dotted_path :
    let content : Text := "logging.level='warn'"
    let machine : Machine := { files := Tree.setAll {} [
      (["w"], .directory), (["w", "a"], .directory),
      (["w", "syscall-synopsis.toml"], .file (Text.toUtf8 content)),
      (["syscall-synopsis.toml"], .file [])] }
    let host := Machine.host (fun _ _ => .error .notFound) 1
    let view : FileView := ⟨machine.files.isFile machine.directory,
      machine.files.read machine.directory⟩
    let p : Path := "/w/a/../syscall-synopsis.toml"
    let other : Host (StateM Machine) := { host with
      read := fun q => pure (if q = p then view.read q else .error .permissionDenied) }
    host.Shows machine view ∧ (find host "/w/a/../b").run machine = (some p, machine) ∧
      IsNearest view.isFile "/w/a/../b" (some p) ∧
      (discover host "/w/a/../b").run machine = (.ok { logLevel := .warn }, machine) ∧
      ((discover other "/w/a/../b").run machine).1 =
        ((discover host "/w/a/../b").run machine).1 := by
  intro content machine host view p other
  have hshows : host.Shows machine view := Machine.shows _ 1 machine
  have hother : other.Shows machine
      { view with read := fun q => if q = p then view.read q else .error .permissionDenied } :=
    ⟨hshows.isFile, fun _ => rfl⟩
  have hnearest : IsNearest view.isFile "/w/a/../b" (some p) := by
    have hstart : directory? view.isFile "/w/a/../b" 0 = some "/w/a/../b".toList := by decide
    refine ⟨1, "/w/a/..".toList, by decide, by decide, by decide, fun j hj e he => ?_⟩
    obtain rfl : j = 0 := Nat.lt_one_iff.mp hj
    cases hstart.symm.trans he
    decide
  have hread : textOf (view.read p) = .ok content := by
    have hfile : view.read p = .ok (Text.toUtf8 content) := by rfl
    simp only [hfile, textOf, Text.ofUtf8?_toUtf8]
  have hmerge : mergeText? {} content = some { logLevel := .warn } := by decide +kernel
  obtain ⟨found, hfind, -, hiff, -, hfound⟩ :=
    find_nearest host machine view hshows "/w/a/../b".toList
  obtain rfl := (hiff (some p)).mpr hnearest
  obtain ⟨-, htext, -, hsame⟩ := hfound p rfl
  refine ⟨hshows, hfind, hnearest, ?_, hsame other machine _ hother rfl (by simp)⟩
  refine (htext content hread).trans ?_
  rw [hmerge]
  rfl

/-- An empty file is found and gives the defaults. -/
theorem not_forall_find_of_discover_defaults :
    ¬ ∀ (host : Host (StateM Machine)) (s : Machine) (files : FileView) (start : Path),
      host.Shows s files →
        (((discover host start).run s).1 = .ok {} ↔ ((find host start).run s).1 = none) := by
  intro h
  let s : Machine := { files := ⟨[(["syscall-synopsis.toml"], .file [])]⟩ }
  have hshows := Machine.shows (fun _ _ => .error .notFound) 1 s
  have hiff := h _ s _ "/" hshows
  have hfirst : firstIn (s.files.isFile s.directory)
      (searchPath (s.files.isFile s.directory "/") "/") = some "/syscall-synopsis.toml".toList :=
    (firstIn_searchPath_eq_iff _).mpr
      ⟨0, "/".toList, by decide, by decide, by decide, fun j hj => absurd hj (Nat.not_lt_zero j)⟩
  rw [run_find hshows, run_discover hshows, hfirst, Option.elim_some, ofContent_eq_ok_iff] at hiff
  have hcontent : textOf (s.files.read s.directory "/syscall-synopsis.toml") = .ok [] := by decide
  cases hiff.mp ⟨[], hcontent, rfl⟩

end Settings

end CallManual
