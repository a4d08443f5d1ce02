import CallManual.Proofs.Resolution.Lookup
import Mathlib.Logic.Relation

/-!
# A batch does not depend on its schedule

Free permits and tasks that hold one always add up to the permits at the start, and tasks keep
their places and the names they were started for. So no order of steps puts more lookups in flight
than there are permits, none gets stuck, and all of them end in the same report.
-/
namespace CallManual

namespace LookupTask

variable {t : LookupTask}

@[simp] theorem isHolding_waiting (n : Text) : isHolding ⟨n, .waiting⟩ = false := rfl

@[simp] theorem isHolding_holding (n : Text) : isHolding ⟨n, .holding⟩ = true := rfl

@[simp] theorem isHolding_done (n : Text) (a : Answer) : isHolding ⟨n, .done a⟩ = false := rfl

@[simp] theorem answer?_waiting (n : Text) : answer? ⟨n, .waiting⟩ = none := rfl

@[simp] theorem answer?_holding (n : Text) : answer? ⟨n, .holding⟩ = none := rfl

@[simp] theorem answer?_done (n : Text) (a : Answer) : answer? ⟨n, .done a⟩ = some a := rfl

def stepsLeft (t : LookupTask) : ℕ :=
  match t.status with
  | .waiting => 2
  | .holding => 1
  | .done _ => 0

theorem eq_holding (h : t.isHolding = true) : t = ⟨t.callName, .holding⟩ := by
  obtain ⟨n, status⟩ := t
  cases status with
  | holding => rfl
  | waiting => cases h
  | done a => cases h

theorem eq_waiting_or_holding (h : t.answer? = none) :
    t = ⟨t.callName, .waiting⟩ ∨ t = ⟨t.callName, .holding⟩ := by
  obtain ⟨n, status⟩ := t
  cases status with
  | waiting => exact Or.inl rfl
  | holding => exact Or.inr rfl
  | done a => cases h

end LookupTask

namespace Schedule
open Relation

variable {lookup : Text → Answer} {callNames : List Text} {permits : ℕ} {s s' : Schedule}

/-- What the steps of a batch preserve. -/
structure Invariant (lookup : Text → Answer) (permits : ℕ) (callNames : List Text)
    (s : Schedule) : Prop where
  names : s.tasks.map LookupTask.callName = callNames
  total : s.permits + s.inFlight = permits
  answers : ∀ t ∈ s.tasks, ∀ a, t.answer? = some a → a = lookup t.callName

theorem inFlight_append_cons (front back : List LookupTask) (t : LookupTask) (free : ℕ) :
    inFlight ⟨front ++ t :: back, free⟩ = front.countP LookupTask.isHolding +
      back.countP LookupTask.isHolding + if t.isHolding then 1 else 0 := by
  rw [inFlight, List.countP_append, List.countP_cons]
  omega

theorem invariant_start (lookup : Text → Answer) (permits : ℕ) (callNames : List Text) :
    Invariant lookup permits callNames (start permits callNames) := by
  refine ⟨?_, ?_, ?_⟩
  · simp [start, Function.comp_def]
  · simp [start, inFlight]
  · simp [start]

theorem Invariant.step (h : Invariant lookup permits callNames s) (hs : Step lookup s s') :
    Invariant lookup permits callNames s' := by
  obtain ⟨hnames, htotal, hanswers⟩ := h
  cases hs with
  | acquire front back n free =>
    refine ⟨by simpa using hnames, ?_, ?_⟩
    · simp only [inFlight_append_cons, LookupTask.isHolding_waiting, LookupTask.isHolding_holding,
        if_true, Bool.false_eq_true, if_false] at htotal ⊢
      omega
    · simpa [or_imp, forall_and] using hanswers
  | finish front back n free =>
    refine ⟨by simpa using hnames, ?_, ?_⟩
    · simp only [inFlight_append_cons, LookupTask.isHolding_holding, LookupTask.isHolding_done,
        if_true, Bool.false_eq_true, if_false] at htotal ⊢
      omega
    · simpa [or_imp, forall_and] using hanswers

theorem invariant_of_run (h : ReflTransGen (Step lookup) (start permits callNames) s) :
    Invariant lookup permits callNames s := by
  induction h with
  | refl => exact invariant_start lookup permits callNames
  | tail _ hs ih => exact ih.step hs

theorem Invariant.inFlight_le (h : Invariant lookup permits callNames s) :
    s.inFlight ≤ permits := by
  have := h.total
  omega

theorem exists_finish {tasks : List LookupTask} {t : LookupTask} (ht : t ∈ tasks)
    (hold : t.isHolding = true) (free : ℕ) : ∃ s', Step lookup ⟨tasks, free⟩ s' := by
  obtain ⟨front, back, rfl⟩ := List.append_of_mem ht
  rw [LookupTask.eq_holding hold]
  exact ⟨_, .finish front back t.callName free⟩

/-- A task that holds a permit can finish; when none does, a permit is free. -/
theorem Invariant.exists_step (h : Invariant lookup permits callNames s) (hp : 1 ≤ permits)
    (hd : s.isDone = false) : ∃ s', Step lookup s s' := by
  obtain ⟨tasks, free⟩ := s
  obtain ⟨t, ht, hanswer⟩ : ∃ t ∈ tasks, t.answer? = none := by
    simpa [isDone] using hd
  rcases LookupTask.eq_waiting_or_holding hanswer with hwait | hhold
  · cases free with
    | zero =>
      have htotal := h.total
      have hpos : 0 < tasks.countP LookupTask.isHolding := by
        simp only [inFlight] at htotal
        omega
      obtain ⟨u, hu, hold⟩ := List.countP_pos_iff.mp hpos
      exact exists_finish hu hold 0
    | succ free =>
      obtain ⟨front, back, rfl⟩ := List.append_of_mem ht
      rw [hwait]
      exact ⟨_, .acquire front back t.callName free⟩
  · exact exists_finish ht (hhold ▸ LookupTask.isHolding_holding _) free

theorem mapM_answer? {tasks : List LookupTask} (hd : ∀ t ∈ tasks, t.answer?.isSome = true)
    (ha : ∀ t ∈ tasks, ∀ a, t.answer? = some a → a = lookup t.callName) :
    tasks.mapM LookupTask.answer? = some (tasks.map fun t => lookup t.callName) := by
  induction tasks with
  | nil => rfl
  | cons t tasks ih =>
    rw [List.forall_mem_cons] at hd ha
    obtain ⟨a, ht⟩ := Option.isSome_iff_exists.mp hd.1
    rw [List.mapM_cons, ih hd.2 ha.2, ht, ha.1 a ht]
    rfl

/-- The answers are put with the names by their places, where their tasks have stayed. -/
theorem Invariant.report?_eq (h : Invariant lookup permits callNames s) (hd : s.isDone = true) :
    s.report? callNames = some (Report.sequential lookup callNames) := by
  have hd : ∀ t ∈ s.tasks, t.answer?.isSome = true := by simpa [isDone] using hd
  have hanswers : s.tasks.map (fun t => lookup t.callName) = callNames.map lookup := by
    rw [← h.names, List.map_map]
    rfl
  have hzip : callNames.zip (callNames.map lookup) = callNames.map fun n => (n, lookup n) := by
    simpa using List.zip_map' (l := callNames) (f := id) (g := lookup)
  rw [report?, mapM_answer? hd h.answers, hanswers, Option.map_some, hzip, Report.sequential]

/-- How many steps the tasks have left. -/
def stepsLeft (s : Schedule) : ℕ := (s.tasks.map LookupTask.stepsLeft).sum

theorem stepsLeft_of_step (hs : Step lookup s s') : s.stepsLeft = s'.stepsLeft + 1 := by
  cases hs with
  | acquire front back n free => simp [stepsLeft, LookupTask.stepsLeft]; omega
  | finish front back n free => simp [stepsLeft, LookupTask.stepsLeft]; omega

/-- Every batch ends. -/
theorem wellFounded_step (lookup : Text → Answer) :
    WellFounded fun s' s => Step lookup s s' := by
  refine Subrelation.wf (fun {s' s} hs => ?_) (measure stepsLeft).wf
  have hleft := stepsLeft_of_step hs
  change s'.stepsLeft < s.stepsLeft
  omega

/-- Whatever steps were made, those left end with every task done. -/
theorem exists_done_of_run (hp : 1 ≤ permits)
    (h : ReflTransGen (Step lookup) (start permits callNames) s) :
    ∃ s', ReflTransGen (Step lookup) s s' ∧ s'.isDone = true := by
  induction s using (wellFounded_step lookup).induction with
  | h s ih =>
    cases hd : s.isDone with
    | true => exact ⟨s, .refl, hd⟩
    | false =>
      obtain ⟨next, hstep⟩ := (invariant_of_run h).exists_step hp hd
      obtain ⟨s', hrun, hdone⟩ := ih next hstep (h.tail hstep)
      exact ⟨s', .head hstep hrun, hdone⟩

variable {m : Type → Type} [Monad m] [LawfulMonad m] {r : Resolver m}
  {pages : Text → Except FetchError (Option Text) × Option Text}

/-- With at least one permit and pages that do not change, a batch that is not done can go on and
never has more lookups in flight than permits. However it went on, its report is that of looking up
one after another: what resolves and what does not, each in the order of the names. -/
theorem report_of_run (hpages : ∀ n, Yields (r.fetch n) (pages n)) (log : Logger m)
    (hpermits : 1 ≤ permits)
    (hrun : ReflTransGen (Step (Resolver.answer r.joinLimit pages)) (start permits callNames) s) :
    let lookup := Resolver.answer r.joinLimit pages
    s.inFlight ≤ permits ∧ (s.isDone = false → ∃ s', Step lookup s s') ∧
      (s.isDone = true → ∃ report, s.report? callNames = some report ∧
        report.resolutions = callNames.filterMap (fun n => (lookup n).toOption) ∧
        report.defects = callNames.filterMap (fun n => Defect.of? n (lookup n)) ∧
        report.resolutions.map Resolution.callName = callNames.filter (fun n => (lookup n).isOk) ∧
        report.defects.map Defect.callName = callNames.filter (fun n => !(lookup n).isOk) ∧
        (OutcomeKind.all.map report.count).sum + report.defects.length = callNames.length ∧
        Yields (r.lookupAll log permits callNames) report ∧
        Yields (CommandLine.collectLookups log r callNames)
          (report.resolutions, report.defects.length)) := by
  intro lookup
  have hinvariant := invariant_of_run hrun
  have hlog (level : LogLevel) (t : Text) : Guarantee.always.Allows (log level t) :=
    ensures_true _
  have hfetch (n : Text) : Guarantee.always.Holds (r.fetch n) (· = pages n) :=
    yields_iff_ensures.mp (hpages n)
  refine ⟨hinvariant.inFlight_le, hinvariant.exists_step hpermits, fun hd => ?_⟩
  refine ⟨Report.sequential lookup callNames, hinvariant.report?_eq hd,
    Report.resolutions_sequential lookup callNames, Report.defects_sequential lookup callNames,
    ?_, ?_, ?_,
    yields_iff_ensures.mpr (Resolver.holds_sequential hlog hfetch permits callNames),
    yields_iff_ensures.mpr (CommandLine.holds_loop_of_sequential hlog hfetch callNames)⟩
  · exact Report.callNames_resolutions_sequential
      (fun n x h => Resolution.callName_of_classify h) callNames
  · exact Report.callNames_defects_sequential lookup callNames
  · rw [Report.sum_count, Report.length_sequential]

/-- Two permits for three lookups, that of the second name ending in a defect. The third name, which
is the first again, is looked up before the first. -/
theorem report_of_run_of_defect :
    let page : Text := "SYNOPSIS\n int f(int a);\n long f(int a);\n"
    let pages : Text → Except FetchError (Option Text) × Option Text := fun n =>
      (.ok (if n = "f2" then some page else none), none)
    let r : Resolver Id := ⟨pages, 3⟩
    let lookup := Resolver.answer 3 pages
    let callNames : List Text := ["g", "f2", "g"]
    let s : Schedule := ⟨callNames.map fun n => ⟨n, .done (lookup n)⟩, 2⟩
    Relation.ReflTransGen (Step lookup) (start 2 callNames) s ∧ s.isDone = true ∧
      ∃ report, s.report? callNames = some report ∧
        report.defects.map Defect.callName = ["f2".toList] ∧
        (CommandLine.collectLookups Logger.silent r callNames).2 = 1 := by
  intro page pages r lookup callNames s
  have hrun : Relation.ReflTransGen (Step lookup) (start 2 callNames) s :=
    .head (.acquire [⟨"g", .waiting⟩] [⟨"g", .waiting⟩] "f2" 1) <|
    .head (.acquire [⟨"g", .waiting⟩, ⟨"f2", .holding⟩] [] "g" 0) <|
    .head (.finish [⟨"g", .waiting⟩, ⟨"f2", .holding⟩] [] "g" 0) <|
    .head (.acquire [] [⟨"f2", .holding⟩, ⟨"g", .done (lookup "g")⟩] "g" 0) <|
    .head (.finish [⟨"g", .holding⟩] [⟨"g", .done (lookup "g")⟩] "f2" 0) <|
    .single (.finish [] [⟨"f2", .done (lookup "f2")⟩, ⟨"g", .done (lookup "g")⟩] "g" 1)
  have hfetch (n : Text) : Yields (r.fetch n) (pages n) := rfl
  obtain ⟨-, -, hreport⟩ := report_of_run hfetch Logger.silent (by decide) hrun
  obtain ⟨report, heq, -, -, -, hnames, -, -, hloop⟩ := hreport rfl
  have hdefects : report.defects.map Defect.callName = ["f2".toList] := hnames.trans (by decide)
  refine ⟨hrun, rfl, report, heq, hdefects, ?_⟩
  calc (CommandLine.collectLookups Logger.silent r callNames).2 = report.defects.length :=
        congrArg Prod.snd hloop
    _ = 1 := by rw [← List.length_map (f := Defect.callName), hdefects]; rfl

/-- It is enough that pages do not change in the states of a run, when fetching and the log keep to
these states. -/
theorem report_of_run_within {σ : Type} {inv : σ → Prop} {r : Resolver (StateM σ)}
    {log : Logger (StateM σ)}
    (hpages : ∀ n st, inv st → ((r.fetch n).run st).1 = pages n ∧ inv ((r.fetch n).run st).2)
    (hlog : ∀ level t st, inv st → inv ((log level t).run st).2)
    (hrun : ReflTransGen (Step (Resolver.answer r.joinLimit pages)) (start permits callNames) s)
    (hd : s.isDone = true) : ∃ report, s.report? callNames = some report ∧ ∀ st, inv st →
      ((r.lookupAll log permits callNames).run st).1 = report ∧
      ((CommandLine.collectLookups log r callNames).run st).1 =
        (report.resolutions, report.defects.length) := by
  have hlog (level : LogLevel) (t : Text) : (Guarantee.within inv).Allows (log level t) :=
    fun st h => ⟨trivial, hlog _ _ st h⟩
  refine ⟨_, (invariant_of_run hrun).report?_eq hd, fun st h => ⟨?_, ?_⟩⟩
  · exact (Resolver.holds_sequential (v := .within inv) hlog hpages permits callNames st h).1
  · exact (CommandLine.holds_loop_of_sequential (v := .within inv) hlog hpages callNames st h).1

end Schedule

end CallManual
