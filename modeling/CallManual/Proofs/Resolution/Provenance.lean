import CallManual.Proofs.Record.Resolution
import CallManual.Proofs.Resolution.Context
import CallManual.Proofs.Resolution.Lookup

/-!
# Where a declaration comes from

A declaration that is found for a call name stands on a line of the page, but for one underscore in
front of its name, and the page holds nothing that fits the call name better. A page gives no other
resolution a declaration, and fails to give one only when several fit equally well.
-/
namespace CallManual.Resolution
open Declaration Page Text

variable {callName page : Text} {limit : ℕ} {ls : List Text} {d : Declaration}

/-- What a page holds when a declaration is found on it for a call name; `ls` are the lines of its
synopsis that are read. -/
structure Justifies (callName page : Text) (limit : ℕ) (ls : List Text) (d : Declaration) :
    Prop where
  unmarked : ∀ l ∈ synopsisBlock (removeOverstrike page), ¬ unimplementedMarker <:+: l
  extracted : synopsis page limit = .declarations ls
  fits : d.name <+: callName
  declared : ∃ l ∈ ls, ∃ e, parse l = .ok e ∧ e.returnType = d.returnType ∧
    e.parameters = d.parameters ∧ (e.name = d.name ∨ e.name = '_' :: d.name)
  preferred :
    (d.name = callName ∧ ∀ l ∈ ls, ∀ e, parse l = .ok e →
        (withPublicName callName e).name = callName → e.arity ≤ d.arity) ∨
      (∀ l ∈ ls, ∀ e, parse l = .ok e → (withPublicName callName e).name ≠ callName) ∧
        (admissible callName (candidates ls) = [d] ∨
          ((admissible callName (candidates ls)).filter fun e => e.name = unversioned callName) =
            [d])

theorem exists_line_of_mem_admissible (h : d ∈ admissible callName (candidates ls)) :
    ∃ l ∈ ls, ∃ e, parse l = .ok e ∧ e.returnType = d.returnType ∧
      e.parameters = d.parameters ∧ (e.name = d.name ∨ e.name = '_' :: d.name) := by
  obtain ⟨⟨e, he, hpublic⟩, -⟩ := mem_admissible.mp h
  obtain ⟨l, hl, hparse⟩ := mem_candidates.mp he
  refine ⟨l, hl, e, hparse, ?_⟩
  obtain hsame | ⟨t, ht, hshort⟩ := withPublicName_eq_or callName e
  · rw [← hpublic, hsame]
    exact ⟨rfl, rfl, Or.inl rfl⟩
  · rw [← hpublic, hshort]
    exact ⟨rfl, rfl, Or.inr ht⟩

theorem justifies_of_select (hls : synopsis page limit = .declarations ls)
    (h : select callName (candidates ls) = .ok d) : Justifies callName page limit ls d := by
  have hmem := mem_admissible_of_select h
  have hlines {P : Declaration → Prop} (hall : ∀ e ∈ candidates ls, P e) :
      ∀ l ∈ ls, ∀ e, parse l = .ok e → P e :=
    fun l hl e he => hall e (mem_candidates.mpr ⟨l, hl, he⟩)
  refine ⟨(synopsis_eq_declarations_iff.mp hls).1, hls, (mem_admissible.mp hmem).2,
    exists_line_of_mem_admissible hmem, ?_⟩
  obtain ⟨hname, hle⟩ | ⟨hnone, honly⟩ := preferred_of_select h
  · exact Or.inl ⟨hname, hlines hle⟩
  · exact Or.inr ⟨hlines hnone, honly⟩

theorem exists_justifies_of_classify {page : Option Text} {r : Resolution}
    (h : classify callName page limit = .ok r) (hd : r.declaration? = some d) :
    ∃ p ls, page = some p ∧ Justifies callName p limit ls d := by
  obtain rfl := callName_of_classify h
  obtain ⟨callName, outcome⟩ := r
  cases outcome <;> cases hd
  cases page with
  | none => cases h
  | some p =>
    obtain ⟨ls, hls, hselect⟩ := classify_eq_found_iff.mp h
    exact ⟨p, ls, rfl, justifies_of_select hls hselect⟩

/-- What a page says is said about the call name that was asked for. There is a declaration exactly
with the kind `found`, and then the page justifies it. The only failure is a choice among several
declarations of the page that fit equally well. -/
theorem classify_grounded (callName : Text) (page : Option Text) (limit : ℕ) :
    (∀ r, classify callName page limit = .ok r →
      r.callName = callName ∧ (r.declaration?.isSome ↔ r.kind = .found) ∧
        ∀ d, r.declaration? = some d → ∃ p ls, page = some p ∧ Justifies callName p limit ls d) ∧
    ∀ a, classify callName page limit = .error a →
      a.callName = callName ∧ ∃ p ls, page = some p ∧ synopsis p limit = .declarations ls ∧
        select callName (candidates ls) = .error (.ambiguous callName a.candidates) := by
  refine ⟨fun r h => ?_, fun a h => ?_⟩
  · exact ⟨callName_of_classify h, r.outcome.isSome_declaration?_iff,
      fun d hd => exists_justifies_of_classify h hd⟩
  · cases page with
    | none => cases h
    | some p =>
      obtain ⟨ls, hls, hselect⟩ := classify_eq_error_iff.mp h
      have hname := callName_of_select_ambiguous hselect
      exact ⟨hname, p, ls, rfl, hls, hname ▸ hselect⟩

/-- No line declares the call under its own name. The line for the name without its digit writes an
underscore in front of it. -/
theorem classify_grounded_of_eventfd2 :
    let page : Text := "SYNOPSIS\n int event(int fd);\n void *_eventfd(int fd, int flags);\n"
    let d : Declaration := ⟨"void*", "eventfd", [.object { baseType := "int", name := "fd" },
      .object { baseType := "int", name := "flags" }]⟩
    classify "eventfd2" (some page) 3 = .ok ⟨"eventfd2", .found d⟩ ∧
      ∃ ls, Justifies "eventfd2" page 3 ls d := by
  intro page d
  have hls : synopsis page 3 =
      .declarations ["int event(int fd);", "void *_eventfd(int fd, int flags);"] := by
    decide
  have hfound : classify "eventfd2" (some page) 3 = .ok ⟨"eventfd2", .found d⟩ :=
    classify_eq_found_iff.mpr ⟨_, hls, rfl⟩
  obtain ⟨-, -, hjustified⟩ := (classify_grounded "eventfd2" (some page) 3).1 _ hfound
  obtain ⟨p, ls, hp, hd⟩ := hjustified d rfl
  exact ⟨hfound, ls, Option.some.inj hp ▸ hd⟩

end CallManual.Resolution
