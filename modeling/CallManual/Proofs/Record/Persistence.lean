import CallManual.Proofs.Record.Resolution

/-!
# Records persist

A record written to a text is read back from it, in either layout, and from every other text that
spells it. A text is decoded to a resolution or to a parameter exactly when its fields are those of
one; fields that do not belong together are refused.
-/
namespace CallManual.Record
open Json (Reading)

variable {α : Type} {toJson : α → Json} {decode : Decoder α} {t : Text} {a : α} {j : Json}
  {e : RecordError}

theorem ofText_eq_ok_iff : ofText decode t = .ok a ↔
    decode (Reading.ofText t).1 = .ok a ∧ (Reading.ofText t).2 = true := by
  have hbind : ofText decode t = decode (Reading.ofText t).1 >>= fun a =>
      if (Reading.ofText t).2 then .ok a else .error .shape := rfl
  rw [hbind, bind_eq_ok_iff]
  cases (Reading.ofText t).2 <;> simp

/-- A fault of the record comes before what follows it. -/
theorem ofText_of_error (h : decode (Reading.ofText t).1 = .error e) :
    ofText decode t = .error e := by
  simp only [ofText, h]
  rfl

theorem ofText_write (h : Reads decode j a) (l : Json.Layout) :
    ofText decode (j.write l 0) = .ok a := by
  have hread : Reading.ofText (j.write l 0) = (Reading.ofJson j, true) := by
    simpa using Reading.ofText_write l j (s := []) (by simp)
  rw [ofText_eq_ok_iff, hread]
  exact ⟨h _ (spells_ofJson j), rfl⟩

/-- Values are read back from what they are written as, also those that were read before, and from
every text that spells them. -/
structure Persists (toJson : α → Json) (decode : Decoder α) : Prop where
  compact : ∀ a, ofText decode (toJson a).compact = .ok a
  pretty : ∀ a, ofText decode (toJson a).pretty = .ok a
  again : ∀ t a, ofText decode t = .ok a →
    ofText decode (toJson a).compact = .ok a ∧ ofText decode (toJson a).pretty = .ok a
  spelled : ∀ t a, Spells (toJson a) (Reading.ofText t).1 → (Reading.ofText t).2 = true →
    ofText decode t = .ok a

theorem persists_of_reads (h : ∀ a, Reads decode (toJson a) a) : Persists toJson decode where
  compact a := ofText_write (h a) .compact
  pretty a := ofText_write (h a) .pretty
  again _ a _ := ⟨ofText_write (h a) .compact, ofText_write (h a) .pretty⟩
  spelled _ a hspells hlast := ofText_eq_ok_iff.mpr ⟨h a _ hspells, hlast⟩

/-- A text is decoded to a resolution exactly when it is decoded to the fields of one. -/
theorem ofText_resolution_eq_ok_iff {x : Resolution} : ofText Resolution.ofReading t = .ok x ↔
    ofText Resolution.fieldsOfReading t = .ok x.fields := by
  rw [ofText_eq_ok_iff, ofText_eq_ok_iff, Resolution.ofReading_eq_ok_iff]

theorem ofText_resolution_of_mismatch {n : Text} {k : OutcomeKind} {d : Option Declaration}
    (h : ofText Resolution.fieldsOfReading t = .ok (n, k, d)) (hd : ¬ (d.isSome ↔ k = .found)) :
    ofText Resolution.ofReading t = .error (.refused (.kindMismatch n k d.isSome)) :=
  ofText_of_error (Resolution.ofReading_of_mismatch (ofText_eq_ok_iff.mp h).1 hd)

/-- The resolutions of a report are decoded from their fields like lone ones. -/
theorem fields_of_ofText_report {report : Report} (h : ofText Report.ofReading t = .ok report) :
    ∃ rs ds, values Report.schema (Reading.ofText t).1 = .ok [rs, ds] ∧
      elements Resolution.fieldsOfReading rs = .ok (report.resolutions.map Resolution.fields) := by
  obtain ⟨rs, ds, hvalues, hrs, -⟩ := Report.exists_values_of_ofReading (ofText_eq_ok_iff.mp h).1
  obtain ⟨vs, hvs, hitems⟩ := elements_eq_ok_iff.mp hrs
  refine ⟨rs, ds, hvalues, elements_eq_ok_iff.mpr ⟨vs, hvs, List.forall₂_map_right_iff.mpr ?_⟩⟩
  exact hitems.imp fun v x hx => Resolution.ofReading_eq_ok_iff.mp hx

section Flat
variable {f : FlatParameter} {p : Parameter} (h : ofText FlatParameter.ofReading t = .ok f)
include h

theorem ofText_parameter_eq_ok_iff : ofText Parameter.ofReading t = .ok p ↔ f = .ofParameter p := by
  obtain ⟨hflat, hlast⟩ := ofText_eq_ok_iff.mp h
  rw [ofText_eq_ok_iff, Parameter.ofReading_eq_ok_iff hflat, and_iff_left hlast]

theorem ofText_parameter_of_no_parameter (hf : ∀ p, f ≠ .ofParameter p) :
    ofText Parameter.ofReading t = .error (.refused f.refusal) :=
  ofText_of_error (Parameter.ofReading_of_no_parameter (ofText_eq_ok_iff.mp h).1 hf)

end Flat

/-- Parameters, declarations, resolutions and reports persist, and so do the flat records of
parameters. A text gives a resolution exactly when it has the fields of one, with a declaration for
the kind `found` and for no other, alone and in a report; it gives a parameter exactly when it has
the flat record of one. What has the fields and is refused is refused for this. -/
theorem persists_and_accepts_exactly :
    Persists Parameter.toJson Parameter.ofReading ∧
    Persists Declaration.toJson Declaration.ofReading ∧
    Persists Resolution.toJson Resolution.ofReading ∧
    Persists Report.toJson Report.ofReading ∧
    Persists FlatParameter.toJson FlatParameter.ofReading ∧
    (∀ t x, ofText Resolution.ofReading t = .ok x →
      ofText Resolution.fieldsOfReading t = .ok (x.callName, x.kind, x.declaration?) ∧
        (x.declaration?.isSome ↔ x.kind = .found)) ∧
    (∀ t n k d, ofText Resolution.fieldsOfReading t = .ok (n, k, d) →
      ((∃ x, ofText Resolution.ofReading t = .ok x) ↔ (d.isSome ↔ k = .found)) ∧
        (¬ (d.isSome ↔ k = .found) →
          ofText Resolution.ofReading t = .error (.refused (.kindMismatch n k d.isSome)))) ∧
    (∀ t report, ofText Report.ofReading t = .ok report →
      (∃ rs ds, values Report.schema (Reading.ofText t).1 = .ok [rs, ds] ∧
        elements Resolution.fieldsOfReading rs =
          .ok (report.resolutions.map Resolution.fields)) ∧
      ∀ x ∈ report.resolutions, (x.declaration?.isSome ↔ x.kind = .found)) ∧
    (∀ t f, ofText FlatParameter.ofReading t = .ok f →
      (∀ p, ofText Parameter.ofReading t = .ok p ↔ f = .ofParameter p) ∧
        ((∀ p, f ≠ .ofParameter p) →
          ofText Parameter.ofReading t = .error (.refused f.refusal))) := by
  have belong (x : Resolution) : x.declaration?.isSome ↔ x.kind = .found :=
    x.outcome.isSome_declaration?_iff
  refine ⟨persists_of_reads Parameter.reads, persists_of_reads Declaration.reads,
    persists_of_reads Resolution.reads, persists_of_reads Report.reads,
    persists_of_reads FlatParameter.reads, fun t x h => ?_, fun t n k d h => ⟨⟨?_, ?_⟩, ?_⟩,
    fun t report h => ?_, fun t f h => ?_⟩
  · exact ⟨ofText_resolution_eq_ok_iff.mp h, belong x⟩
  · rintro ⟨x, hx⟩
    rw [ofText_resolution_eq_ok_iff, h] at hx
    cases hx
    exact belong x
  · intro hd
    obtain ⟨o, ho⟩ := Option.isSome_iff_exists.mp (Outcome.isSome_of?_iff.mpr hd)
    obtain ⟨rfl, rfl⟩ := Outcome.eq_of_of?_eq_some ho
    exact ⟨⟨n, o⟩, ofText_resolution_eq_ok_iff.mpr h⟩
  · exact ofText_resolution_of_mismatch h
  · exact ⟨fields_of_ofText_report h, fun x _ => belong x⟩
  · exact ⟨fun p => ofText_parameter_eq_ok_iff h, ofText_parameter_of_no_parameter h⟩

/-- A resolution with its members in another order, one of them unknown, and its declaration as an
array; a name with a declaration that its kind does not have; and a variadic parameter with a
type. -/
theorem persists_and_accepts_exactly_of_unusual_texts :
    let found : Resolution := ⟨"f", .found ⟨"int", "f", []⟩⟩
    let shuffled : Text := (Json.object [
      ("kind", .object [("Found", .null)]),
      ("more", .array [.null, .object [("kind", .string "Found")]]),
      ("definition", .array [.string "int", .string "f", .array []]),
      ("call_name", .string "f")]).compact
    let mismatched : Text := (Json.array [.string "g", .string "Unimplemented",
      .array [.string "int", .string "g", .array []]]).pretty
    let typed : FlatParameter := { FlatParameter.ofParameter .variadic with baseType := "int" }
    ofText Resolution.ofReading shuffled = .ok found ∧
      ofText Resolution.ofReading found.toJson.pretty = .ok found ∧
      ofText Resolution.ofReading mismatched =
        .error (.refused (.kindMismatch "g" .unimplemented true)) ∧
      ofText Parameter.ofReading typed.toJson.compact =
        .error (.refused .variadicWithFields) := by
  intro found shuffled mismatched typed
  obtain ⟨-, -, hresolution, -, hflat, -, hfields, -, hparameter⟩ := persists_and_accepts_exactly
  have hshuffled : ofText Resolution.ofReading shuffled = .ok found := by decide +kernel
  have hmismatched : ofText Resolution.fieldsOfReading mismatched =
      .ok ("g", .unimplemented, some ⟨"int", "g", []⟩) := by decide +kernel
  refine ⟨hshuffled, (hresolution.again _ _ hshuffled).2, ?_, ?_⟩
  · exact (hfields _ _ _ _ hmismatched).2 (by decide)
  · refine (hparameter _ typed (hflat.compact typed)).2 fun p => ?_
    cases p <;> simp [typed, FlatParameter.ofParameter, Parameter.isVariadic, Parameter.baseType]

end CallManual.Record
