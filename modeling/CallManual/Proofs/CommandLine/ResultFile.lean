import CallManual.CommandLine.Run
import CallManual.Host.Machine
import CallManual.Proofs.Host.Yields
import CallManual.Proofs.Record.Resolution
import CallManual.Proofs.Text.Utf8

/-!
# Files of results

What a batch or a lookup writes is read back by the check of availability. A file holds a report or
a list of resolutions, and as records may be written as arrays, a list of two could be taken for a
report. It never is: the first of its items would have to be a resolution and a list of resolutions.
-/
namespace CallManual
open Json (Reading)
open Json.Reading Record

variable {r : Reading} {rs : List Resolution} {report : Report} {t s : Text}

/-! ## Nesting -/

theorem Parameter.isStrict_toJson (d : ℕ) (p : Parameter) : isStrict (d + 1) (ofJson p.toJson) := by
  simp [toJson, FlatParameter.toJson]

theorem Declaration.isStrict_toJson (d : ℕ) (x : Declaration) :
    isStrict (d + 3) (ofJson x.toJson) := by
  simp [toJson, Parameter.isStrict_toJson]

theorem Resolution.isStrict_toJson (d : ℕ) (x : Resolution) :
    isStrict (d + 4) (ofJson x.toJson) := by
  cases h : x.declaration? <;> simp [toJson, h, Declaration.isStrict_toJson]

theorem Defect.isStrict_toJson (d : ℕ) (x : Defect) : isStrict (d + 1) (ofJson x.toJson) := by
  simp [toJson]

theorem Report.isStrict_toJson (d : ℕ) (x : Report) : isStrict (d + 6) (ofJson x.toJson) := by
  simp [toJson, Resolution.isStrict_toJson, Defect.isStrict_toJson]

/-! ## Reports and lists of resolutions -/

theorem Record.eq_of_values_array {schema : List Field} {items vs : List Reading}
    (h : values schema (.array items true) = .ok vs) : vs = items := by
  obtain ⟨-, -, hvs⟩ := bind_eq_ok_iff.mp h
  cases hvs
  rfl

theorem Resolution.ofReading_string (s : Option Text) :
    ofReading (.string s) = .error .shape :=
  rfl

/-- As an array, a resolution starts with its name. -/
theorem Resolution.exists_of_ofReading_array {items : List Reading} {x : Resolution}
    (h : ofReading (.array items true) = .ok x) :
    ∃ k d, items = [.string (some x.callName), k, d] := by
  obtain ⟨vs, hvs, hbuild⟩ := bind_eq_ok_iff.mp (ofReading_eq_ok_iff.mp h)
  obtain rfl := eq_of_values_array hvs
  obtain _ | ⟨n, _ | ⟨k, _ | ⟨d, _ | ⟨_, _⟩⟩⟩⟩ := vs
  case cons.cons.cons.nil =>
    obtain ⟨name, hname, hbuild⟩ := bind_eq_ok_iff.mp hbuild
    obtain ⟨kind, -, hbuild⟩ := bind_eq_ok_iff.mp hbuild
    obtain ⟨declaration, -, hbuild⟩ := bind_eq_ok_iff.mp hbuild
    cases hbuild
    exact ⟨k, d, by rw [text_eq_ok_iff.mp hname]⟩
  all_goals cases hbuild

theorem Report.not_elements_of_ofReading (h : Report.ofReading r = .ok report) :
    elements Resolution.ofReading r ≠ .ok rs := by
  intro hlist
  obtain ⟨items, rfl, hitems⟩ := elements_eq_ok_iff.mp hlist
  obtain ⟨xs, ds, hvalues, hxs, -⟩ := exists_values_of_ofReading h
  obtain rfl := eq_of_values_array hvalues
  -- the first of the two items is read as a list, and as a resolution
  obtain _ | ⟨hfirst, -⟩ := hitems
  obtain ⟨vs, rfl, hvs⟩ := elements_eq_ok_iff.mp hxs
  obtain ⟨k, d, rfl⟩ := Resolution.exists_of_ofReading_array hfirst
  obtain ⟨x, -, hname, -, -⟩ := List.forall₂_cons_left_iff.mp hvs
  cases (Resolution.ofReading_string _).symm.trans hname

/-- The form that is tried first does not matter. -/
theorem Report.resolutionsIn?_eq_some_iff : resolutionsIn? t = some rs ↔
    (Reading.ofText t).2 = true ∧ isStrict nestingLimit (Reading.ofText t).1 = true ∧
      ((∃ report, ofReading (Reading.ofText t).1 = .ok report ∧ report.resolutions = rs) ∨
        elements Resolution.ofReading (Reading.ofText t).1 = .ok rs) := by
  unfold resolutionsIn?
  obtain ⟨r, last⟩ := Reading.ofText t
  cases hreport : ofReading r with
  | ok report =>
    have hnot : elements Resolution.ofReading r ≠ .ok rs := not_elements_of_ofReading hreport
    simp [hreport, hnot, and_assoc]
  | error e =>
    cases hlist : elements Resolution.ofReading r <;>
      simp [hreport, hlist, and_assoc, Except.toOption]

section Written
variable (hs : ∀ c ∈ s, Json.isSpace c = true)
include hs

theorem Report.resolutionsIn?_of_report (report : Report) :
    resolutionsIn? (report.toJson.pretty ++ s) = some report.resolutions := by
  rw [resolutionsIn?_eq_some_iff, Json.pretty, ofText_write .pretty _ hs]
  exact ⟨rfl, report.isStrict_toJson 121, .inl ⟨report, report.reads _ (spells_ofJson _), rfl⟩⟩

theorem Report.resolutionsIn?_of_resolutions (rs : List Resolution) :
    resolutionsIn? ((Json.array (rs.map Resolution.toJson)).pretty ++ s) = some rs := by
  rw [resolutionsIn?_eq_some_iff, Json.pretty, ofText_write .pretty _ hs]
  have hstrict : isStrict (122 + 4 + 1) (ofJson (.array (rs.map Resolution.toJson))) = true := by
    simp [Resolution.isStrict_toJson]
  exact ⟨rfl, hstrict, .inr (reads_elements Resolution.reads rs _ (spells_ofJson _))⟩

end Written

variable {m : Type → Type} [Monad m] [LawfulMonad m] {host : Host m} {p : Path} {β : Type}
  {before : m β}

theorem Host.yields_readText
    (hread : Yields (before >>= fun _ => host.read p) (.ok (Text.toUtf8 t))) :
    Yields (before >>= fun _ => host.readText p) (.ok t) := by
  refine hread.bind_after ?_
  simp only [Text.ofUtf8?_toUtf8]
  exact yields_pure _

namespace CommandLine

theorem yields_definitionNames
    (hread : Yields (before >>= fun _ => host.read p) (.ok (Text.toUtf8 t)))
    (ht : Report.resolutionsIn? t = some rs) :
    Yields (before >>= fun _ => definitionNames host p) (.ok (rs.map Resolution.callName)) := by
  refine (Host.yields_readText hread).bind_after ?_
  simp only [ht]
  exact yields_pure _

/-- When a file is found to hold a report or a list of resolutions, written out and with white
space behind it or not, its call names are those written, in their order. What is decoded as a
report is never a list of resolutions. -/
theorem definitionNames_of_written (host : Host m) (p : Path) (before : m β)
    (hs : ∀ c ∈ s, Json.isSpace c = true) :
    (∀ report : Report,
      Yields (before >>= fun _ => host.read p) (.ok (Text.toUtf8 (report.toJson.pretty ++ s))) →
        Yields (before >>= fun _ => definitionNames host p)
          (.ok (report.resolutions.map Resolution.callName))) ∧
    (∀ rs : List Resolution,
      Yields (before >>= fun _ => host.read p)
          (.ok (Text.toUtf8 ((Json.array (rs.map Resolution.toJson)).pretty ++ s))) →
        Yields (before >>= fun _ => definitionNames host p)
          (.ok (rs.map Resolution.callName))) ∧
    ∀ (r : Reading) (report : Report) (rs : List Resolution),
      Report.ofReading r = .ok report → elements Resolution.ofReading r ≠ .ok rs := by
  refine ⟨fun report hread => ?_, fun rs hread => ?_, fun r report rs h => ?_⟩
  · exact yields_definitionNames hread (Report.resolutionsIn?_of_report hs report)
  · exact yields_definitionNames hread (Report.resolutionsIn?_of_resolutions hs rs)
  · exact Report.not_elements_of_ofReading h

/-- A machine on which a file holds two resolutions and a line end. -/
theorem definitionNames_of_two_resolutions :
    let rs : List Resolution := [⟨"f\n", .found ⟨"int", "f", [.variadic]⟩⟩, ⟨"g", .unimplemented⟩]
    let bytes := Text.toUtf8 ((Json.array (rs.map Resolution.toJson)).pretty ++ ['\n'])
    let machine : Machine := { files := ⟨[(["results"], .file bytes)]⟩ }
    let host := Machine.host (fun _ _ => .error .notFound) 1
    (∀ c ∈ ['\n'], Json.isSpace c = true) ∧
      Yields (set machine >>= fun _ => host.read "results") (.ok bytes) ∧
      Yields (set machine >>= fun _ => definitionNames host "results") (.ok ["f\n", "g"]) := by
  intro rs bytes machine host
  have hspace : ∀ c ∈ ['\n'], Json.isSpace c = true := by decide
  have hfile : machine.files.read machine.directory "results" = .ok bytes := by rfl
  have hread : Yields (set machine >>= fun _ => host.read "results") (.ok bytes) := by
    funext s
    exact congrArg (fun x => (x, machine)) hfile
  exact ⟨hspace, hread, (definitionNames_of_written host "results" _ hspace).2.1 rs hread⟩

end CommandLine

end CallManual
