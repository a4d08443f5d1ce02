import CallManual.CommandLine.Run
import CallManual.Proofs.Host.Yields
import CallManual.Proofs.Resolution.Report

/-!
# Looking up with fixed pages

A batch and the loop over its names end with answers to these names, in their order, whatever the
log does. When what fetching gives depends on the call name alone, so does how a lookup ends, and
looking up many names gives the report of looking up one after another.
-/
namespace CallManual

variable {m : Type → Type} [Monad m] {r : Resolver m} {log : Logger m}
  {pages : Text → Except FetchError (Option Text) × Option Text} {v : Guarantee m}
  {callName : Text} {callNames : List Text} {found : List (Text × Answer)}
  {q : Text → Answer → Prop}

theorem Resolution.callName_of_classify {callName : Text} {page : Option Text} {limit : ℕ}
    {x : Resolution} (h : classify callName page limit = .ok x) : x.callName = callName := by
  cases page with
  | none =>
    simp only [classify, Except.ok.injEq] at h
    exact h ▸ rfl
  | some p =>
    cases ho : ofSynopsis callName (Page.synopsis p limit) with
    | ok o =>
      simp only [classify, ho, Except.map, Except.ok.injEq] at h
      exact h ▸ rfl
    | error a => simp [classify, ho, Except.map] at h

/-- Each name has an answer that is allowed for it. -/
def Answered (q : Text → Answer → Prop) : List Text → List (Text × Answer) → Prop :=
  List.Forall₂ fun n x => x.1 = n ∧ q n x.2

theorem Answered.eq_map {f : Text → Answer} (h : Answered (fun n a => a = f n) callNames found) :
    found = callNames.map fun n => (n, f n) := by
  induction h with
  | nil => rfl
  | cons hx _ ih => rw [List.map_cons, ← ih, ← hx.2, ← hx.1]

namespace Resolver

/-- How a lookup ends when this is what fetching gives. -/
def answer (joinLimit : Nat) (pages : Text → Except FetchError (Option Text) × Option Text)
    (callName : Text) : Answer :=
  Resolution.classify callName (pages callName).1.toOption.join joinLimit

section Logged
variable (hlog : ∀ level t, v.Allows (log level t))
include hlog

/-- The log has no part in how a lookup ends. -/
theorem holds_lookup {p : Except FetchError (Option Text) × Option Text → Prop}
    (h : v.Holds (r.fetch callName) p) : v.Holds (r.lookup log callName) fun a =>
      ∃ fetched, p fetched ∧
        a = Resolution.classify callName fetched.1.toOption.join r.joinLimit := by
  unfold lookup
  refine v.holds_bind h fun ⟨fetched, note⟩ hfetched => ?_
  have hend (x : Option Text) (hx : fetched.toOption.join = x) : v.Holds
      (do
        for n in Resolution.notes callName x r.joinLimit do log .debug n
        return Resolution.classify callName x r.joinLimit)
      fun a => ∃ fetched, p fetched ∧
        a = Resolution.classify callName fetched.1.toOption.join r.joinLimit :=
    v.holds_bind (v.loop (hlog .debug) _) fun _ _ =>
      v.holds_pure ⟨(fetched, note), hfetched, by rw [← hx]⟩
  cases note with
  | none =>
    cases fetched with
    | ok page => exact v.holds_bind (v.holds_pure rfl) hend
    | error e => exact v.holds_bind (hlog _ _) fun _ _ => v.holds_bind (v.holds_pure rfl) hend
  | some n =>
    refine v.holds_bind (hlog .debug n) fun _ _ => ?_
    cases fetched with
    | ok page => exact v.holds_bind (v.holds_pure rfl) hend
    | error e => exact v.holds_bind (hlog _ _) fun _ _ => v.holds_bind (v.holds_pure rfl) hend

theorem holds_answer [LawfulMonad m] (h : v.Holds (r.fetch callName) (· = pages callName)) :
    v.Holds (r.lookup log callName) (· = answer r.joinLimit pages callName) := by
  refine v.imp (holds_lookup hlog h) ?_
  rintro a ⟨fetched, rfl, ha⟩
  exact ha

/-- A batch reports on answers to its names, in their order. -/
theorem holds_lookupAll [LawfulMonad m] (h : ∀ n, v.Holds (r.lookup log n) (q n)) (workers : ℕ)
    (callNames : List Text) : v.Holds (r.lookupAll log workers callNames) fun report =>
      ∃ found, Answered q callNames found ∧ report = Report.ofLookups found := by
  have hpair (n : Text) : v.Holds (do return (n, ← r.lookup log n)) fun x => x.1 = n ∧ q n x.2 :=
    v.holds_bind (h n) fun a ha => v.holds_pure ⟨rfl, ha⟩
  unfold lookupAll
  refine v.holds_bind (hlog _ _) fun _ _ => v.holds_bind (v.mapM hpair callNames) ?_
  intro found hfound
  refine v.holds_bind (v.loop (fun d => hlog .error _) _) fun _ _ => ?_
  exact v.holds_bind (hlog _ _) fun _ _ => v.holds_pure ⟨found, hfound, rfl⟩

theorem allows_lookup [LawfulMonad m] (h : v.Allows (r.fetch callName)) :
    v.Allows (r.lookup log callName) :=
  v.imp (holds_lookup hlog h) fun _ _ => trivial

theorem allows_lookupAll [LawfulMonad m] (h : ∀ n, v.Allows (r.fetch n)) (workers : ℕ)
    (callNames : List Text) : v.Allows (r.lookupAll log workers callNames) :=
  v.imp (holds_lookupAll hlog (fun n => allows_lookup hlog (h n)) workers callNames)
    fun _ _ => trivial

/-- With fixed pages a batch is looking up one after another. -/
theorem holds_sequential [LawfulMonad m] (h : ∀ n, v.Holds (r.fetch n) (· = pages n)) (workers : ℕ)
    (callNames : List Text) : v.Holds (r.lookupAll log workers callNames)
      (· = Report.sequential (answer r.joinLimit pages) callNames) := by
  refine v.imp (holds_lookupAll hlog (fun n => holds_answer hlog (h n)) workers callNames) ?_
  rintro _ ⟨found, hfound, rfl⟩
  rw [hfound.eq_map, Report.sequential]

end Logged

end Resolver

namespace CommandLine

/-- The loop keeps what a report has as resolutions and counts what it has as defects. -/
theorem holds_collectLookups (hlog : ∀ level t, v.Allows (log level t))
    (h : ∀ n, v.Holds (r.lookup log n) (q n)) (callNames : List Text) :
    v.Holds (collectLookups log r callNames) fun x => ∃ found, Answered q callNames found ∧
      x = ((Report.ofLookups found).resolutions, (Report.ofLookups found).defects.length) := by
  induction callNames with
  | nil => exact v.holds_pure ⟨[], .nil, rfl⟩
  | cons n callNames ih =>
    unfold collectLookups
    refine v.holds_bind (h n) fun a ha => ?_
    cases a with
    | ok x =>
      refine v.holds_bind ih ?_
      rintro _ ⟨found, hfound, rfl⟩
      exact v.holds_pure ⟨(n, .ok x) :: found, .cons ⟨rfl, ha⟩ hfound, rfl⟩
    | error a =>
      refine v.holds_bind (hlog _ _) fun _ _ => v.holds_bind ih ?_
      rintro _ ⟨found, hfound, rfl⟩
      exact v.holds_pure ⟨(n, .error a) :: found, .cons ⟨rfl, ha⟩ hfound, rfl⟩

theorem allows_collectLookups [LawfulMonad m] (hlog : ∀ level t, v.Allows (log level t))
    (h : ∀ n, v.Allows (r.fetch n)) (callNames : List Text) :
    v.Allows (collectLookups log r callNames) :=
  v.imp (holds_collectLookups hlog (fun n => Resolver.allows_lookup hlog (h n)) callNames)
    fun _ _ => trivial

/-- With fixed pages the loop gives what the report has. -/
theorem holds_loop_of_sequential [LawfulMonad m]
    (hlog : ∀ level t, v.Allows (log level t))
    (h : ∀ n, v.Holds (r.fetch n) (· = pages n)) (callNames : List Text) :
    let report := Report.sequential (Resolver.answer r.joinLimit pages) callNames
    v.Holds (collectLookups log r callNames)
      (· = (report.resolutions, report.defects.length)) := by
  refine v.imp (holds_collectLookups hlog (fun n => Resolver.holds_answer hlog (h n)) callNames) ?_
  rintro _ ⟨found, hfound, rfl⟩
  rw [hfound.eq_map, Report.sequential]

end CommandLine

end CallManual
