import CallManual.Proofs.Declaration.Selection
import CallManual.Proofs.Page.Context
import CallManual.Resolution.Classify

/-!
# What the rest of a page changes

Text outside the synopsis changes nothing, whatever it holds. More lines in front of a synopsis can
add declarations; one of the right name that was found without them is found with them, or one with
at least as many parameters.
-/
namespace CallManual.Resolution
open Text Page

variable {a before body header footer callName : Text} {limit : ℕ} {d : Declaration}

theorem mem_candidates {e : Declaration} {ls : List Text} :
    e ∈ candidates ls ↔ ∃ l ∈ ls, Declaration.parse l = .ok e := by
  have hread (l : Text) :
      (Declaration.parse l).toOption = some e ↔ Declaration.parse l = .ok e := by
    cases Declaration.parse l <;> simp [Except.toOption]
  simp [candidates, List.mem_filterMap, hread]

theorem candidates_append (ks ls : List Text) :
    candidates (ks ++ ls) = candidates ks ++ candidates ls :=
  List.filterMap_append

/-- The selection fails on an empty list by itself. -/
theorem ofCandidates_eq (callName : Text) (ds : List Declaration) : ofCandidates callName ds =
    match Declaration.select callName ds with
    | .ok d => .ok (.found d)
    | .error (.noMatch _) => .ok .noDeclaration
    | .error (.ambiguous n cs) => .error ⟨n, cs⟩ := by
  cases ds <;> rfl

theorem ofCandidates_eq_found_iff {ds : List Declaration} :
    ofCandidates callName ds = .ok (.found d) ↔ Declaration.select callName ds = .ok d := by
  rw [ofCandidates_eq]
  cases Declaration.select callName ds with
  | ok x => simp
  | error cause => cases cause <;> simp

theorem ofCandidates_eq_error_iff {ds : List Declaration} {a : Ambiguity} :
    ofCandidates callName ds = .error a ↔
      Declaration.select callName ds = .error (.ambiguous a.callName a.candidates) := by
  obtain ⟨n, cs⟩ := a
  rw [ofCandidates_eq]
  cases Declaration.select callName ds with
  | ok x => simp
  | error cause => cases cause <;> simp

theorem classify_eq_found_iff {page : Text} :
    classify callName (some page) limit = .ok ⟨callName, .found d⟩ ↔
      ∃ ls, synopsis page limit = .declarations ls ∧
        Declaration.select callName (candidates ls) = .ok d := by
  cases hs : synopsis page limit with
  | unimplemented => simp [classify, hs, ofSynopsis, Except.map]
  | declarations ls =>
    simp only [classify, hs, ofSynopsis, Synopsis.declarations.injEq, exists_eq_left',
      ← ofCandidates_eq_found_iff]
    cases ofCandidates callName (candidates ls) <;> simp [Except.map]

theorem classify_eq_error_iff {page : Text} {a : Ambiguity} :
    classify callName (some page) limit = .error a ↔
      ∃ ls, synopsis page limit = .declarations ls ∧
        Declaration.select callName (candidates ls) =
          .error (.ambiguous a.callName a.candidates) := by
  cases hs : synopsis page limit with
  | unimplemented => simp [classify, hs, ofSynopsis, Except.map]
  | declarations ls =>
    simp only [classify, hs, ofSynopsis, Synopsis.declarations.injEq, exists_eq_left',
      ← ofCandidates_eq_error_iff]
    cases ofCandidates callName (candidates ls) <;> simp [Except.map]

/-- A page is classified by its synopsis alone. The text in front of its header and the text behind
the header of the description may hold declarations, markers and overstruck characters. -/
theorem classify_between (hbefore : Lacks synopsisHeader before)
    (hheader : IsHeader synopsisHeader header) (hbody : Lacks descriptionHeader body)
    (hfooter : IsHeader descriptionHeader footer) (after callName : Text) (limit : ℕ) :
    classify callName
        (some (before ++ (header ++ '\n' :: (body ++ (footer ++ '\n' :: after))))) limit =
      classify callName (some (synopsisHeader ++ '\n' :: body)) limit := by
  simp only [classify, synopsis_between hbefore hheader hbody hfooter after limit]

/-- The text in front holds a declaration and an overstruck backspace at the start of a line, the
text behind holds the marker and a second synopsis. -/
theorem classify_between_struck_headers :
    let before : Text := "F(2)\n\x08int f(int a, int b);\n"
    let header : Text := "S\x08SY\x08YN\x08NO\x08OP\x08PS\x08SI\x08IS\x08S"
    let body : Text := " int f(int a);\r\n  DESCRIPTION\n"
    let footer : Text := "DESCRIPTION \r"
    let after : Text := "Unimplemented\nSYNOPSIS\n int f(void);\n"
    Lacks synopsisHeader before ∧ IsHeader synopsisHeader header ∧
      Lacks descriptionHeader body ∧ IsHeader descriptionHeader footer ∧
      classify "f" (some (before ++ (header ++ '\n' :: (body ++ (footer ++ '\n' :: after))))) 3 =
        .ok ⟨"f", .found ⟨"int", "f", [.object { baseType := "int", name := "a" }]⟩⟩ := by
  intro before header body footer after
  have hbefore : Lacks synopsisHeader before :=
    ⟨Or.inr ⟨"F(2)\n\x08int f(int a, int b);", by decide⟩, by decide⟩
  have hbody : Lacks descriptionHeader body :=
    ⟨Or.inr ⟨" int f(int a);\r\n  DESCRIPTION", by decide⟩, by decide⟩
  have hheader : IsHeader synopsisHeader header := ⟨by decide, by decide⟩
  have hfooter : IsHeader descriptionHeader footer := ⟨by decide, by decide⟩
  refine ⟨hbefore, hheader, hbody, hfooter, ?_⟩
  have hsynopsis : synopsis (synopsisHeader ++ '\n' :: body) 3 =
      .declarations ["int f(int a);"] := by
    decide
  rw [classify_between hbefore hheader hbody hfooter after "f" 3]
  exact classify_eq_found_iff.mpr ⟨_, hsynopsis, rfl⟩

/-- Whole lines in front of a synopsis that do not end it and do not mark it add at most a
declaration each and take none away. A declaration named as the call that was found is still found,
or one of that name with at least as many parameters. -/
theorem classify_append_of_found (ha : Lacks descriptionHeader a)
    (hmark : ∀ l ∈ lines (removeOverstrike a), ¬ unimplementedMarker <:+: l)
    (b callName : Text) (limit : ℕ) :
    (∀ ls, synopsis (synopsisHeader ++ '\n' :: b) limit = .declarations ls →
      ∃ ks, ks.length ≤ (lines a).length ∧
        synopsis (synopsisHeader ++ '\n' :: (a ++ b)) limit = .declarations (ks ++ ls)) ∧
    ∀ d, classify callName (some (synopsisHeader ++ '\n' :: b)) limit =
        .ok ⟨callName, .found d⟩ → d.name = callName →
      ∃ e, classify callName (some (synopsisHeader ++ '\n' :: (a ++ b))) limit =
          .ok ⟨callName, .found e⟩ ∧ e.name = callName ∧ d.arity ≤ e.arity := by
  refine ⟨fun ls h => exists_synopsis_append ha hmark h, fun d h hname => ?_⟩
  obtain ⟨ls, hls, hd⟩ := classify_eq_found_iff.mp h
  obtain ⟨ks, -, hks⟩ := exists_synopsis_append ha hmark hls
  obtain ⟨e, he, hename, hle⟩ := Declaration.exists_select_append hd hname (candidates ks)
  exact ⟨e, classify_eq_found_iff.mpr ⟨_, hks, by rw [candidates_append, he]⟩, hename, hle⟩

/-- The first of the two lines in front is not closed and is joined with the second, which holds a
declaration with more parameters. -/
theorem classify_append_of_open_line :
    let a : Text := " int f(char *p,\n long f(int a, int b);\n"
    let b : Text := " int f(int a);\n"
    let ls : List Text := ["int f(int a);"]
    Lacks descriptionHeader a ∧
      (∀ l ∈ lines (removeOverstrike a), ¬ unimplementedMarker <:+: l) ∧
      (∃ ks, ks.length ≤ 2 ∧
        synopsis (synopsisHeader ++ '\n' :: (a ++ b)) 3 = .declarations (ks ++ ls)) ∧
      ∃ e, classify "f" (some (synopsisHeader ++ '\n' :: (a ++ b))) 3 = .ok ⟨"f", .found e⟩ ∧
        e.name = "f" ∧ 1 ≤ e.arity := by
  intro a b ls
  let d : Declaration := ⟨"int", "f", [.object { baseType := "int", name := "a" }]⟩
  have ha : Lacks descriptionHeader a :=
    ⟨Or.inr ⟨" int f(char *p,\n long f(int a, int b);", by decide⟩, by decide⟩
  have hls : synopsis (synopsisHeader ++ '\n' :: b) 3 = .declarations ls := by decide
  have hfound : classify "f" (some (synopsisHeader ++ '\n' :: b)) 3 = .ok ⟨"f", .found d⟩ :=
    classify_eq_found_iff.mpr ⟨ls, hls, rfl⟩
  have hmark : ∀ l ∈ lines (removeOverstrike a), ¬ unimplementedMarker <:+: l := by decide
  have hmore := classify_append_of_found ha hmark b "f" 3
  exact ⟨ha, hmark, hmore.1 ls hls, hmore.2 d hfound rfl⟩

end CallManual.Resolution
