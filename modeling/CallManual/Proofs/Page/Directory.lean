import CallManual.Host.Machine
import CallManual.Page.Source
import CallManual.Proofs.Host.Tree
import CallManual.Proofs.Text.Cut
import CallManual.Proofs.Text.Identifier
import Mathlib.Data.Char
import Mathlib.Data.List.Lex

/-!
# Directories of pages

Listing a directory takes the extension off the names of its files, and fetching a page puts it on
again. On names that are identifiers the one undoes the other, so the calls that are listed are
those whose page is there, and no other page is ever returned.
-/
namespace CallManual
open Text

variable {d : PageDirectory} {f n text : Text} {names : List Text}

theorem mem_insertName {m : Text} : m ∈ insertName n names ↔ m = n ∨ m ∈ names := by
  induction names with
  | nil => simp [insertName]
  | cons x names ih =>
    rw [insertName]
    split
    · exact List.mem_cons
    · split
      · next heq => simp [heq]
      · simp only [List.mem_cons, ih]
        exact or_left_comm

/-- A name is put where the list stays strictly rising. -/
theorem pairwise_insertName (h : names.Pairwise (· < ·)) :
    (insertName n names).Pairwise (· < ·) := by
  induction names with
  | nil => exact List.pairwise_singleton _ n
  | cons x names ih =>
    obtain ⟨hx, hnames⟩ := List.pairwise_cons.mp h
    rw [insertName]
    split
    · next hlt =>
      refine List.pairwise_cons.mpr ⟨fun y hy => ?_, h⟩
      rcases List.mem_cons.mp hy with rfl | hy
      · exact hlt
      · exact lt_trans hlt (hx y hy)
    · next hge =>
      split
      · exact h
      · next hne =>
        refine List.pairwise_cons.mpr ⟨fun y hy => ?_, ih hnames⟩
        rcases mem_insertName.mp hy with rfl | hy
        · exact lt_of_le_of_ne (not_lt.mp hge) (Ne.symm hne)
        · exact hx y hy

namespace PageDirectory

theorem mem_callNamesOf {files : List Text} :
    n ∈ d.callNamesOf files ↔ ∃ f ∈ files, d.callName? f = some n := by
  rw [← List.mem_filterMap, callNamesOf]
  induction files.filterMap d.callName? with
  | nil => rfl
  | cons m names ih => rw [List.foldr_cons, mem_insertName, List.mem_cons, ih]

theorem pairwise_callNamesOf (d : PageDirectory) (files : List Text) :
    (d.callNamesOf files).Pairwise (· < ·) := by
  rw [callNamesOf]
  induction files.filterMap d.callName? with
  | nil => exact List.Pairwise.nil
  | cons m names ih => exact pairwise_insertName ih

theorem head?_of_isIdentifier (h : isIdentifier n = true) (t : Text) :
    (n ++ t).head? ≠ some '.' := by
  obtain ⟨c, rest, rfl, hc⟩ := (isIdentifier_iff_isName.mp h).exists_cons
  have hne : c ≠ '.' := by
    rintro rfl
    revert hc
    decide
  simpa using hne

/-- A file is the page of the calls whose name it has, with the extension or without. -/
theorem callName?_eq_some_iff : d.callName? f = some n ↔
    isIdentifier n = true ∧ (f = n ++ d.extension ∨ f = n) := by
  unfold callName?
  constructor
  · intro h
    split at h
    · cases h
    · simp only [Option.ite_none_right_eq_some, Option.some.injEq] at h
      obtain ⟨hname, rfl⟩ := h
      refine ⟨hname, ?_⟩
      cases hdrop : dropSuffix? d.extension f with
      | none => exact Or.inr rfl
      | some stem => exact Or.inl (dropSuffix?_eq_some_iff.mp hdrop)
  · rintro ⟨hname, rfl | rfl⟩
    · have hdrop : dropSuffix? d.extension (n ++ d.extension) = some n :=
        dropSuffix?_eq_some_iff.mpr rfl
      rw [if_neg (head?_of_isIdentifier hname _), hdrop]
      simp [hname]
    · have hdrop : dropSuffix? d.extension f = none := by
        refine Option.eq_none_iff_forall_ne_some.mpr fun stem hstem => ?_
        have hdot : '.' ∈ f := by simp [dropSuffix?_eq_some_iff.mp hstem, extension]
        exact notMem_of_isIdentifier hname (by decide) hdot
      have hhead := head?_of_isIdentifier hname []
      rw [List.append_nil] at hhead
      rw [if_neg hhead, hdrop]
      simp [hname]

end PageDirectory

namespace Tree

variable {t : Tree} {directory : Path} {place : Place}

/-- The text of a file of a tree, as a host gives it. -/
def readText (t : Tree) (directory p : Path) : Except IoError Text :=
  match t.read directory p with
  | .error e => .error e
  | .ok bytes =>
    match ofUtf8? bytes with
    | some text => .ok text
    | none => .error .notUtf8

/-- The directory at this place holds a regular file of this name. -/
def HasFile (t : Tree) (place : Place) (f : Text) : Prop :=
  ∃ bytes, t.get? (place ++ [f]) = some (.file bytes)

/-- The directory at this place holds a regular file of this name with this text. -/
def HasText (t : Tree) (place : Place) (f text : Text) : Prop :=
  ∃ bytes, t.get? (place ++ [f]) = some (.file bytes) ∧ ofUtf8? bytes = some text

theorem HasText.hasFile (h : t.HasText place f text) : t.HasFile place f := by
  obtain ⟨bytes, hbytes, -⟩ := h
  exact ⟨bytes, hbytes⟩

theorem readText_eq_ok_iff {p : Path} : t.readText directory p = .ok text ↔
    ∃ bytes, t.read directory p = .ok bytes ∧ ofUtf8? bytes = some text := by
  rw [readText]
  cases t.read directory p with
  | error e => simp
  | ok bytes => cases hutf8 : ofUtf8? bytes <;> simp [hutf8]

theorem readText_eq_notFound_iff {p : Path} : t.readText directory p = .error .notFound ↔
    t.read directory p = .error .notFound := by
  rw [readText]
  cases t.read directory p with
  | error e => simp
  | ok bytes => cases hutf8 : ofUtf8? bytes <;> simp [hutf8]

end Tree

namespace PageDirectory

variable {programs : Machine.Programs} {processors : ℕ} {s : Machine} {place : Place}

theorem run_readText (s : Machine) (p : Path) :
    ((Machine.host programs processors).readText p).run s =
      (s.files.readText s.directory p, s) := by
  have hread : ((Machine.host programs processors).read p).run s =
      (s.files.read s.directory p, s) := rfl
  rw [Host.readText, StateT.run_bind, hread, Tree.readText]
  cases s.files.read s.directory p with
  | error e => rfl
  | ok bytes =>
    dsimp only [bind]
    cases ofUtf8? bytes <;> rfl

/-- The text of the first of these files that exists. -/
def firstText (t : Tree) (directory : Path) : List Path → Except FetchError (Option Text)
  | [] => .ok none
  | p :: ps =>
    match t.readText directory p with
    | .ok text => .ok (some text)
    | .error .notFound => firstText t directory ps
    | .error e => .error (.unreadable p e)

theorem run_firstPage (s : Machine) (ps : List Path) :
    (firstPage (Machine.host programs processors) ps).run s =
      (firstText s.files s.directory ps, s) := by
  induction ps with
  | nil => rfl
  | cons p ps ih =>
    rw [firstPage, StateT.run_bind, run_readText, firstText]
    cases s.files.readText s.directory p with
    | ok text => rfl
    | error e =>
      cases e with
      | notFound => exact ih
      | _ => rfl

/-- What is fetched for a call, as the files are. -/
def pageIn (d : PageDirectory) (t : Tree) (directory : Path) (n : Text) :
    Except FetchError (Option Text) :=
  if isIdentifier n then firstText t directory (d.candidates n) else .error (.invalidName n)

theorem run_fetch (d : PageDirectory) (n : Text) (s : Machine) :
    (d.fetch (Machine.host programs processors) n).run s =
      (d.pageIn s.files s.directory n, s) := by
  unfold fetch pageIn
  split
  · exact run_firstPage s _
  · rfl

/-- A file that is not there is passed over, and nothing else is. -/
theorem firstText_cons_eq_ok_iff {t : Tree} {directory p : Path} {ps : List Path}
    {page : Option Text} : firstText t directory (p :: ps) = .ok page ↔
      (∃ text, t.readText directory p = .ok text ∧ page = some text) ∨
        t.readText directory p = .error .notFound ∧ firstText t directory ps = .ok page := by
  rw [firstText]
  cases t.readText directory p with
  | ok text => simp [eq_comm]
  | error e => cases e <;> simp

/-- The text of the page of a call: of the file with the extension where there is one, else of the
file without. -/
structure IsPage (d : PageDirectory) (t : Tree) (place : Place) (n text : Text) : Prop where
  extended : t.HasFile place (n ++ d.extension) → t.HasText place (n ++ d.extension) text
  bare : ¬ t.HasFile place (n ++ d.extension) → t.HasText place n text

theorem IsPage.hasFile {t : Tree} (h : d.IsPage t place n text) :
    t.HasFile place (n ++ d.extension) ∨ t.HasFile place n := by
  by_cases hfull : t.HasFile place (n ++ d.extension)
  · exact Or.inl hfull
  · exact Or.inr (h.bare hfull).hasFile

theorem isPlain_of_isIdentifier {extension : Text} (h : isIdentifier n = true)
    (hextension : '/' ∉ extension) : Path.IsPlain (n ++ extension) where
  unbroken := by
    have hn : '/' ∉ n := notMem_of_isIdentifier h (by decide)
    simp [hn, hextension]
  visible := by
    have hhead := head?_of_isIdentifier h extension
    obtain ⟨c, rest, rfl, -⟩ := (isIdentifier_iff_isName.mp h).exists_cons
    exact ⟨c, rest ++ extension, rfl, by simpa using hhead⟩

theorem isPlain_candidates (h : isIdentifier n = true) (hsection : '/' ∉ d.manualSection) :
    Path.IsPlain (n ++ d.extension) ∧ Path.IsPlain n := by
  constructor
  · apply isPlain_of_isIdentifier h
    simp [extension, hsection]
  · have hbare := isPlain_of_isIdentifier h List.not_mem_nil
    rwa [List.append_nil] at hbare

theorem fetch_of_not_isIdentifier {m : Type → Type} [Monad m] (host : Host m)
    (h : isIdentifier n = false) : d.fetch host n = pure (.error (.invalidName n)) := by
  rw [fetch, if_neg (by simp [h])]

theorem fetch_eq_ok_iff {page : Option Text} (hn : isIdentifier n = true) :
    ((d.fetch (Machine.host programs processors) n).run s).1 = .ok page ↔
      firstText s.files s.directory (d.candidates n) = .ok page := by
  rw [fetch, if_pos hn, run_firstPage]

theorem isIdentifier_of_fetch {page : Option Text}
    (h : ((d.fetch (Machine.host programs processors) n).run s).1 = .ok page) :
    isIdentifier n = true := by
  by_contra hn
  rw [fetch_of_not_isIdentifier _ (Bool.not_eq_true _ ▸ hn)] at h
  cases h

section Located
variable (hroot : s.files.locate s.directory d.root = .ok place)
  (hdir : s.files.get? place = some .directory) (hsection : '/' ∉ d.manualSection)
  (hn : isIdentifier n = true)
include hroot hdir hsection hn

theorem firstText_eq_page_iff :
    firstText s.files s.directory (d.candidates n) = .ok (some text) ↔
      Tree.nameFault? d.root (n ++ d.extension) = none ∧
        (s.files.HasText place (n ++ d.extension) text ∨
          s.files.get? (place ++ [n ++ d.extension]) = none ∧
            Tree.nameFault? d.root n = none ∧ s.files.HasText place n text) := by
  obtain ⟨hfull, hbare⟩ := isPlain_candidates hn hsection
  rw [candidates, firstText_cons_eq_ok_iff, firstText_cons_eq_ok_iff, firstText]
  simp [Tree.readText_eq_ok_iff, Tree.readText_eq_notFound_iff, Tree.HasText,
    Tree.read_eq_ok_iff hroot hdir hfull, Tree.read_eq_ok_iff hroot hdir hbare,
    Tree.read_eq_notFound_iff hroot hdir hfull, and_assoc, and_or_left]

theorem firstText_eq_none_iff :
    firstText s.files s.directory (d.candidates n) = .ok none ↔
      (Tree.nameFault? d.root (n ++ d.extension) = none ∧
        s.files.get? (place ++ [n ++ d.extension]) = none) ∧
      Tree.nameFault? d.root n = none ∧ s.files.get? (place ++ [n]) = none := by
  obtain ⟨hfull, hbare⟩ := isPlain_candidates hn hsection
  rw [candidates, firstText_cons_eq_ok_iff, firstText_cons_eq_ok_iff, firstText]
  simp [Tree.readText_eq_notFound_iff, Tree.read_eq_notFound_iff hroot hdir hfull,
    Tree.read_eq_notFound_iff hroot hdir hbare]

/-- What is found is the page: the file without the extension is read only where nothing stands
under the name with it. -/
theorem isPage_of_firstText
    (h : firstText s.files s.directory (d.candidates n) = .ok (some text)) :
    d.IsPage s.files place n text := by
  obtain ⟨-, hfull | ⟨hnone, -, hbare⟩⟩ := (firstText_eq_page_iff hroot hdir hsection hn).mp h
  · exact ⟨fun _ => hfull, fun hno => absurd hfull.hasFile hno⟩
  · exact ⟨fun ⟨bytes, hbytes⟩ => by simp [hnone] at hbytes, fun _ => hbare⟩

/-- The page is found unless its path is too long or a directory takes the place of the file with
the extension. -/
theorem firstText_of_isPage (hpage : d.IsPage s.files place n text)
    (hfault : Tree.nameFault? d.root (n ++ d.extension) = none)
    (hfree : s.files.get? (place ++ [n ++ d.extension]) ≠ some .directory) :
    firstText s.files s.directory (d.candidates n) = .ok (some text) := by
  rw [firstText_eq_page_iff hroot hdir hsection hn]
  refine ⟨hfault, ?_⟩
  by_cases hfile : s.files.HasFile place (n ++ d.extension)
  · exact Or.inl (hpage.extended hfile)
  · right
    obtain ⟨-, hplain⟩ := isPlain_candidates (d := d) hn hsection
    have hnone : s.files.get? (place ++ [n ++ d.extension]) = none := by
      cases hentry : s.files.get? (place ++ [n ++ d.extension]) with
      | none => rfl
      | some e =>
        cases e with
        | directory => exact absurd hentry hfree
        | file bytes => exact absurd ⟨bytes, hentry⟩ hfile
    exact ⟨hnone, Tree.nameFault?_of_append hplain.ne_nil hplain.head?_ne hfault,
      hpage.bare hfile⟩

end Located

theorem mem_callNames_iff (hfiles : s.files.WellFormed)
    (hroot : s.files.locate s.directory d.root = .ok place) :
    n ∈ ((d.callNames (Machine.host programs processors)).run s).1 ↔ isIdentifier n = true ∧
      (s.files.HasFile place (n ++ d.extension) ∨ s.files.HasFile place n) := by
  have hrun : ((d.callNames (Machine.host programs processors)).run s).1 =
      d.callNamesOf (s.files.filesIn s.directory d.root) := rfl
  simp only [hrun, mem_callNamesOf, callName?_eq_some_iff, Tree.mem_filesIn_iff hfiles hroot]
  constructor
  · rintro ⟨f, hfile, hname, rfl | rfl⟩
    · exact ⟨hname, Or.inl hfile⟩
    · exact ⟨hname, Or.inr hfile⟩
  · rintro ⟨hname, hfile | hfile⟩
    · exact ⟨_, hfile, hname, Or.inl rfl⟩
    · exact ⟨_, hfile, hname, Or.inr rfl⟩

/-- The calls of a directory are the identifiers whose file is there, with the extension or without.
They are listed once and in order, and those with a page that can be read are exactly those that a
page is fetched for. Nothing is done to fetch a page for what is no identifier. -/
theorem callNames_agree_with_fetch (programs : Machine.Programs) (processors : ℕ) (s : Machine)
    (d : PageDirectory) (place : Place) (hfiles : s.files.WellFormed)
    (hroot : s.files.locate s.directory d.root = .ok place)
    (hdir : s.files.get? place = some .directory) (hsection : '/' ∉ d.manualSection) :
    let names := ((d.callNames (Machine.host programs processors)).run s).1
    let fetched n := ((d.fetch (Machine.host programs processors) n).run s).1
    (∀ n, n ∈ names ↔
      IsName n ∧ (s.files.HasFile place (n ++ d.extension) ∨ s.files.HasFile place n)) ∧
    names.Pairwise (· < ·) ∧
    (∀ n ∈ names, fetched n ≠ .ok none) ∧
    (∀ n text, fetched n = .ok (some text) → n ∈ names ∧ d.IsPage s.files place n text) ∧
    (∀ n ∈ names, ∀ text, d.IsPage s.files place n text →
      Tree.nameFault? d.root (n ++ d.extension) = none →
      s.files.get? (place ++ [n ++ d.extension]) ≠ some .directory →
      fetched n = .ok (some text)) ∧
    ∀ n, ¬ IsName n → ∀ (m : Type → Type) [Monad m] (host : Host m),
      d.fetch host n = pure (.error (.invalidName n)) := by
  intro names fetched
  have hmem (n : Text) : n ∈ names ↔ isIdentifier n = true ∧
      (s.files.HasFile place (n ++ d.extension) ∨ s.files.HasFile place n) :=
    mem_callNames_iff hfiles hroot
  refine ⟨fun n => ?_, pairwise_callNamesOf d _, fun n hn hnone => ?_, fun n text htext => ?_,
    fun n hn text hpage hfault hfree => ?_, fun n hn m _ host => ?_⟩
  · rw [hmem, isIdentifier_iff_isName]
  · obtain ⟨hname, hfile⟩ := (hmem n).mp hn
    rw [fetch_eq_ok_iff hname, firstText_eq_none_iff hroot hdir hsection hname] at hnone
    obtain ⟨⟨-, hfull⟩, -, hbare⟩ := hnone
    rcases hfile with ⟨bytes, hbytes⟩ | ⟨bytes, hbytes⟩
    · simp [hfull] at hbytes
    · simp [hbare] at hbytes
  · have hname := isIdentifier_of_fetch htext
    have hpage := isPage_of_firstText hroot hdir hsection hname ((fetch_eq_ok_iff hname).mp htext)
    exact ⟨(hmem n).mpr ⟨hname, hpage.hasFile⟩, hpage⟩
  · have hname := ((hmem n).mp hn).1
    apply (fetch_eq_ok_iff hname).mpr
    exact firstText_of_isPage hroot hdir hsection hname hpage hfault hfree
  · apply fetch_of_not_isIdentifier
    rwa [← isIdentifier_iff_isName, Bool.not_eq_true] at hn

/-- Two files are the page of `a`, and the one with the extension counts. A directory stands in the
way of the page of `b`, so it is listed but cannot be read. Of the other files only `d` is a
page. -/
theorem callNames_agree_with_fetch_of_shadowed_page :
    let tree : Tree := Tree.setAll {} [
      (["p"], .directory), (["p", "a.2"], .file [110]), (["p", "a"], .file [111]),
      (["p", "b.2"], .directory), (["p", "b"], .file [112]), (["p", "c.2.2"], .file [113]),
      (["p", ".2"], .file [114]), (["p", "d"], .file [115])]
    let s : Machine := { files := tree }
    let d : PageDirectory := ⟨"p/", "2"⟩
    let host := Machine.host (fun _ _ => .error .notFound) 1
    let fetched n := ((d.fetch host n).run s).1
    tree.WellFormed ∧ tree.locate s.directory d.root = .ok ["p"] ∧
      ((d.callNames host).run s).1 = (["a", "b", "d"] : List Text) ∧
      (fetched "a" = .ok (some "n") ∧ d.IsPage tree ["p"] "a" "n") ∧
      (fetched "b" = .error (.unreadable "p/b.2" .isDirectory) ∧ fetched "b" ≠ .ok none) ∧
      (d.IsPage tree ["p"] "d" "s" ∧ fetched "d" = .ok (some "s")) ∧
      fetched "c.2" = .error (.invalidName "c.2") := by
  intro tree s d host fetched
  have hwell : tree.WellFormed := Tree.wellFormed_empty.setAll _
  have hroot : tree.locate s.directory d.root = .ok ["p"] := by decide
  obtain ⟨-, -, hsome, hpage, hfound, hinvalid⟩ := callNames_agree_with_fetch
    (fun _ _ => .error .notFound) 1 s d ["p"] hwell hroot (by decide) (by decide)
  have hnames : ((d.callNames host).run s).1 = (["a", "b", "d"] : List Text) := by decide
  have ha : fetched "a" = .ok (some "n") := by decide
  have hd : d.IsPage tree ["p"] "d" "s" := by
    have hnone : tree.get? ["p", "d.2"] = none := by decide
    refine ⟨?_, fun _ => ⟨[115], by decide, by decide⟩⟩
    rintro ⟨bytes, hbytes⟩
    cases hnone.symm.trans hbytes
  have hc : d.fetch host "c.2" = pure (.error (.invalidName "c.2")) := hinvalid _ (by decide) _ host
  refine ⟨hwell, hroot, hnames, ⟨ha, (hpage _ _ ha).2⟩, ⟨by decide, hsome _ ?_⟩,
    ⟨hd, hfound _ ?_ _ hd (by decide) (by decide)⟩, ?_⟩
  · rw [hnames]
    decide
  · rw [hnames]
    decide
  · simp only [fetched, hc]
    rfl

end PageDirectory

end CallManual
