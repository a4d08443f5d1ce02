import CallManual.Proofs.Record.Parameter
import CallManual.Record.Resolution

/-!
# Declarations, resolutions and reports read back

The decoder of each record gives back what was written, in every spelling. A resolution is decoded
exactly when its kind and its declaration belong together.
-/
namespace CallManual
open Record

variable {r : Json.Reading}

theorem Declaration.reads (d : Declaration) : Reads ofReading d.toJson d := by
  have hparameters := reads_elements Parameter.reads d.parameters
  refine reads_record (by decide) ?_ fun vs hvs => ?_
  · exact .cons ((reads_text _).takes _) <| .cons ((reads_text _).takes _) <|
      .cons (hparameters.takes _) .nil
  · obtain _ | ⟨htype, _ | ⟨hname, _ | ⟨hps, ⟨⟩⟩⟩⟩ := hvs
    dsimp only
    rw [reads_text _ _ htype, reads_text _ _ hname, hparameters _ hps]
    rfl

theorem OutcomeKind.ofWord?_word (k : OutcomeKind) : ofWord? k.word = some k := by
  cases k <;> decide

theorem OutcomeKind.reads (k : OutcomeKind) : Reads ofReading (.string k.word) k := by
  intro r hr
  rw [spells_string_iff.mp hr]
  simp only [ofReading, ofWord, ofWord?_word]

namespace Outcome

variable {o : Outcome} {k : OutcomeKind} {d : Option Declaration}

theorem isSome_declaration?_iff (o : Outcome) : o.declaration?.isSome ↔ o.kind = .found := by
  cases o <;> simp [declaration?, kind]

theorem of?_kind_declaration? (o : Outcome) : of? o.kind o.declaration? = some o := by
  cases o <;> rfl

theorem eq_of_of?_eq_some (h : of? k d = some o) : k = o.kind ∧ d = o.declaration? := by
  unfold of? at h
  split at h <;> cases h <;> exact ⟨rfl, rfl⟩

/-- A kind and a declaration belong together when there is a declaration exactly for `found`. -/
theorem isSome_of?_iff : (of? k d).isSome ↔ (d.isSome ↔ k = .found) := by
  cases k <;> cases d <;> simp [of?]

end Outcome

namespace Resolution

/-- The fields of a resolution, not held against each other. -/
def fieldsOfReading : Decoder (Text × OutcomeKind × Option Declaration) := fun r => do
  match ← Record.values schema r with
  | [callName, kind, declaration] =>
    let callName ← Record.text callName
    let kind ← OutcomeKind.ofReading kind
    let declaration ← Record.nullable Declaration.ofReading declaration
    .ok (callName, kind, declaration)
  | _ => .error .shape

def ofFields : Text × OutcomeKind × Option Declaration → Except RecordError Resolution
  | (callName, kind, declaration) =>
    match Outcome.of? kind declaration with
    | some outcome => .ok { callName, outcome }
    | none => .error (.refused (.kindMismatch callName kind declaration.isSome))

def fields (x : Resolution) : Text × OutcomeKind × Option Declaration :=
  (x.callName, x.kind, x.declaration?)

theorem ofReading_eq (r : Json.Reading) : ofReading r = fieldsOfReading r >>= ofFields := by
  unfold ofReading fieldsOfReading
  rw [bind_assoc]
  congr 1
  funext vs
  obtain _ | ⟨callName, _ | ⟨kind, _ | ⟨declaration, _ | ⟨_, _⟩⟩⟩⟩ := vs
  case cons.cons.cons.nil =>
    simp only [bind_assoc]
    rfl
  all_goals rfl

theorem ofFields_eq_ok_iff {x : Resolution} {fs : Text × OutcomeKind × Option Declaration} :
    ofFields fs = .ok x ↔ fs = x.fields := by
  obtain ⟨n, k, d⟩ := fs
  refine ⟨fun h => ?_, fun h => ?_⟩
  · cases ho : Outcome.of? k d with
    | none => simp [ofFields, ho] at h
    | some o =>
      simp only [ofFields, ho, Except.ok.injEq] at h
      obtain ⟨rfl, rfl⟩ := Outcome.eq_of_of?_eq_some ho
      exact h ▸ rfl
  · rw [h]
    simp only [ofFields, fields, kind, declaration?, Outcome.of?_kind_declaration?]

theorem ofFields_of_mismatch {n : Text} {k : OutcomeKind} {d : Option Declaration}
    (h : ¬ (d.isSome ↔ k = .found)) :
    ofFields (n, k, d) = .error (.refused (.kindMismatch n k d.isSome)) := by
  have hnone : Outcome.of? k d = none := by
    rwa [← Outcome.isSome_of?_iff, Bool.not_eq_true, Option.isSome_eq_false_iff,
      Option.isNone_iff_eq_none] at h
  simp only [ofFields, hnone]

/-- A resolution is decoded exactly from its fields. -/
theorem ofReading_eq_ok_iff {x : Resolution} :
    ofReading r = .ok x ↔ fieldsOfReading r = .ok x.fields := by
  rw [ofReading_eq, bind_eq_ok_iff]
  simp only [ofFields_eq_ok_iff, exists_eq_right]

theorem ofReading_of_mismatch {n : Text} {k : OutcomeKind} {d : Option Declaration}
    (h : fieldsOfReading r = .ok (n, k, d)) (hd : ¬ (d.isSome ↔ k = .found)) :
    ofReading r = .error (.refused (.kindMismatch n k d.isSome)) := by
  rw [ofReading_eq, bind_of_eq_ok h, ofFields_of_mismatch hd]

theorem reads_fields (x : Resolution) : Reads fieldsOfReading x.toJson x.fields := by
  have hdeclaration : Reads (nullable Declaration.ofReading)
      ((x.declaration?.map Declaration.toJson).getD .null) x.declaration? := by
    cases x.declaration? with
    | none => exact reads_nullable_none
    | some d => exact reads_nullable_some d.reads
  refine reads_record (by decide) ?_ fun vs hvs => ?_
  · exact .cons ((reads_text _).takes _) <| .cons (x.kind.reads.takes _) <|
      .cons (hdeclaration.takes _) .nil
  · obtain _ | ⟨hname, _ | ⟨hkind, _ | ⟨hd, ⟨⟩⟩⟩⟩ := hvs
    dsimp only
    rw [reads_text _ _ hname, OutcomeKind.reads _ _ hkind, hdeclaration _ hd]
    rfl

theorem reads (x : Resolution) : Reads ofReading x.toJson x :=
  fun r hr => ofReading_eq_ok_iff.mpr (x.reads_fields r hr)

end Resolution

theorem Defect.reads (d : Defect) : Reads ofReading d.toJson d := by
  refine reads_record (by decide) ?_ fun vs hvs => ?_
  · exact .cons ((reads_text _).takes _) <| .cons ((reads_text _).takes _) .nil
  · obtain _ | ⟨hname, _ | ⟨hmessage, ⟨⟩⟩⟩ := hvs
    dsimp only
    rw [reads_text _ _ hname, reads_text _ _ hmessage]
    rfl

/-- What a report is decoded from: the values of its two fields. -/
theorem Report.exists_values_of_ofReading {report : Report} (h : ofReading r = .ok report) :
    ∃ rs ds, values schema r = .ok [rs, ds] ∧
      elements Resolution.ofReading rs = .ok report.resolutions ∧
      elements Defect.ofReading ds = .ok report.defects := by
  obtain ⟨vs, hvs, hbuild⟩ := bind_eq_ok_iff.mp h
  obtain _ | ⟨rs, _ | ⟨ds, _ | ⟨_, _⟩⟩⟩ := vs
  case cons.cons.nil =>
    obtain ⟨resolutions, hrs, hbuild⟩ := bind_eq_ok_iff.mp hbuild
    obtain ⟨defects, hds, hbuild⟩ := bind_eq_ok_iff.mp hbuild
    cases hbuild
    exact ⟨rs, ds, hvs, hrs, hds⟩
  all_goals cases hbuild

theorem Report.reads (report : Report) : Reads ofReading report.toJson report := by
  have hresults := reads_elements Resolution.reads report.resolutions
  have hdefects := reads_elements Defect.reads report.defects
  refine reads_record (by decide) ?_ fun vs hvs => ?_
  · exact .cons (hresults.takes _) <| .cons (hdefects.takes _) .nil
  · obtain _ | ⟨hrs, _ | ⟨hds, ⟨⟩⟩⟩ := hvs
    dsimp only
    rw [hresults _ hrs, hdefects _ hds]
    rfl

end CallManual
