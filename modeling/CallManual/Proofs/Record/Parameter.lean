import CallManual.Proofs.Record.Spelling
import CallManual.Record.Parameter

/-!
# Which flat records are parameters

Every flat record is read back from its text. It is the record of a parameter unless it is variadic
or a function pointer and has something besides, and then it is refused for that.
-/
namespace CallManual
open Record

variable {f : FlatParameter} {p : Parameter}

namespace FlatParameter

theorem reads (f : FlatParameter) : Reads ofReading f.toJson f := by
  refine reads_record (by decide) ?_ fun vs hvs => ?_
  · exact .cons ((reads_boolean _).takes _) <| .cons ((reads_text _).takes _) <|
      .cons ((reads_text _).takes _) <| .cons ((reads_boolean _).takes _) <|
      .cons ((reads_boolean _).takes _) <| .cons ((reads_boolean _).takes _) <|
      .cons ((reads_boolean _).takes _) <| .cons ((reads_boolean _).takes _) <|
      .cons ((reads_boolean _).takes _) <| .cons ((reads_boolean _).takes _) <|
      .cons ((reads_boolean _).takes _) <| .cons ((reads_boolean _).takes _) .nil
  · -- a text and a truth value have one spelling each
    have hone : vs = _ := eq_map_ofJson hvs
      (by simp [spells_bool_iff, spells_string_iff, Json.Reading.ofJson])
    rw [hone]
    rfl

theorem toParameter_ofParameter (p : Parameter) : (ofParameter p).toParameter = .ok p := by
  cases p <;> rfl

theorem hasFlags_eq_false_iff : f.hasFlags = false ↔ f.isPointer = false ∧
    f.isConstPointer = false ∧ f.isArray = false ∧ f.qualifiers = {} := by
  simp [hasFlags, Qualifiers.isEmpty, and_assoc]

theorem toParameter_eq_ok_iff : f.toParameter = .ok p ↔ f = ofParameter p := by
  refine ⟨fun h => ?_, fun h => h ▸ toParameter_ofParameter p⟩
  obtain ⟨variadic, base, name, qualifiers, pointer, constPointer, array, callback⟩ := f
  unfold toParameter at h
  split_ifs at h with hvariadic hmore hcallback hflags
  · cases h
    simp only [Bool.or_eq_true, Bool.not_eq_true', not_or, Bool.not_eq_true, Bool.not_eq_false,
      hasFlags_eq_false_iff, List.isEmpty_iff] at hmore
    obtain ⟨⟨⟨rfl, rfl, rfl, rfl, rfl⟩, rfl⟩, rfl⟩ := hmore
    obtain rfl : variadic = true := hvariadic
    rfl
  · cases h
    simp only [Bool.not_eq_true, hasFlags_eq_false_iff] at hvariadic hflags
    obtain ⟨rfl, rfl, rfl, rfl⟩ := hflags
    obtain rfl := hvariadic
    obtain rfl : callback = true := hcallback
    rfl
  · cases h
    simp only [Bool.not_eq_true] at hvariadic hcallback
    obtain rfl := hvariadic
    obtain rfl := hcallback
    rfl

/-- Why a flat record that is no parameter is refused. -/
def refusal (f : FlatParameter) : Refusal :=
  if f.isVariadic then .variadicWithFields else .callbackWithFlags

theorem toParameter_eq_error_refusal (h : ∀ p, f ≠ ofParameter p) :
    f.toParameter = .error f.refusal := by
  have hno (p : Parameter) : f.toParameter ≠ .ok p := fun hp => h p (toParameter_eq_ok_iff.mp hp)
  unfold toParameter refusal at *
  split_ifs at hno ⊢ with hvariadic hmore hcallback hflags
  · rfl
  · exact absurd rfl (hno _)
  · rfl
  · exact absurd rfl (hno _)
  · exact absurd rfl (hno _)

end FlatParameter

namespace Parameter

variable {r : Json.Reading}

/-- A flat record is decoded to a parameter exactly when it is the record of the parameter. -/
theorem ofReading_eq_ok_iff (h : FlatParameter.ofReading r = .ok f) :
    ofReading r = .ok p ↔ f = .ofParameter p := by
  rw [ofReading, bind_of_eq_ok h, ← FlatParameter.toParameter_eq_ok_iff]
  cases f.toParameter <;> simp

theorem ofReading_of_no_parameter (h : FlatParameter.ofReading r = .ok f)
    (hf : ∀ p, f ≠ .ofParameter p) : ofReading r = .error (.refused f.refusal) := by
  rw [ofReading, bind_of_eq_ok h, FlatParameter.toParameter_eq_error_refusal hf]

theorem reads (p : Parameter) : Reads ofReading p.toJson p :=
  fun r hr => (ofReading_eq_ok_iff (FlatParameter.reads (.ofParameter p) r hr)).mpr rfl

end Parameter

end CallManual
