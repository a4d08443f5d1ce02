import CallManual.Json.Reading
import CallManual.Proofs.Json.Token

/-!
# Written JSON read again

The tokens of a value bring the reader from where a value is expected to behind the value, whatever
containers are open, and nothing is left open or missing. So a written value is read back complete,
with white space behind it or not.
-/
namespace CallManual.Json
open Text

variable {stack : List Reading.Frame} {k : Token} {ts : List Token} {s : Text}

namespace Reading

mutual

/-- What a written value is read as. -/
def ofJson : Json → Reading
  | .null => .null
  | .bool b => .bool b
  | .string s => .string (some s)
  | .array items => .array (ofItems items) true
  | .object members => .object (ofMembers members) true

def ofItems : List Json → List Reading
  | [] => []
  | x :: xs => ofJson x :: ofItems xs

def ofMembers : List (Text × Json) → List (Option Text × Reading)
  | [] => []
  | (k, v) :: ms => (some k, ofJson v) :: ofMembers ms

end

theorem run_cons {mode : Mode} {next : State} (h : step? mode stack k = some next)
    (ts : List Token) : run (.expect mode stack) (k :: ts) = run next ts := by
  rw [run, h]

/-- A value may stand where the first item may. -/
theorem run_firstItem (j : Json) (stack : List Frame) (ts : List Token) :
    run (.expect .firstItem stack) (tokenList j ++ ts) =
      run (.expect .value stack) (tokenList j ++ ts) := by
  cases j <;> rfl

mutual

theorem run_tokenList : ∀ (j : Json) (stack : List Frame) (ts : List Token),
    run (.expect .value stack) (tokenList j ++ ts) = run (offer (ofJson j) stack) ts
  | .null, stack, ts => rfl
  | .bool b, stack, ts => rfl
  | .string s, stack, ts => rfl
  | .array [], stack, ts => rfl
  | .array (x :: xs), stack, ts => by
    have hfirst : run (.expect .firstItem (.items [] :: stack))
        (itemTokens (x :: xs) ++ .closeArray :: ts) =
          run (.expect .value (.items [] :: stack)) (itemTokens (x :: xs) ++ .closeArray :: ts) := by
      rw [itemTokens, List.append_assoc, run_firstItem]
    rw [tokenList, List.cons_append, run_cons rfl, List.append_assoc, List.singleton_append, hfirst,
      run_itemTokens (x :: xs) (List.cons_ne_nil x xs), List.append_nil, run_cons rfl,
      List.reverse_reverse, ofJson]
  | .object [], stack, ts => rfl
  | .object (m :: ms), stack, ts => by
    have hfirst : run (.expect .firstKey (.members [] none :: stack))
        (memberTokens (m :: ms) ++ .closeObject :: ts) =
          run (.expect .key (.members [] none :: stack))
            (memberTokens (m :: ms) ++ .closeObject :: ts) :=
      rfl
    rw [tokenList, List.cons_append, run_cons rfl, List.append_assoc, List.singleton_append, hfirst,
      run_memberTokens (m :: ms) (List.cons_ne_nil m ms), List.append_nil, run_cons rfl,
      List.reverse_reverse, ofJson]

/-- The items end up in the innermost container, an open array. -/
theorem run_itemTokens : ∀ (xs : List Json), xs ≠ [] → ∀ (done : List Reading)
    (stack : List Frame) (ts : List Token),
    run (.expect .value (.items done :: stack)) (itemTokens xs ++ ts) =
      run (.expect .separator (.items ((ofItems xs).reverse ++ done) :: stack)) ts
  | [], hne, _, _, _ => absurd rfl hne
  | [x], _, done, stack, ts => by
    rw [itemTokens, List.append_assoc, run_tokenList x]
    rfl
  | x :: y :: xs, _, done, stack, ts => by
    have hcomma : run (offer (ofJson x) (.items done :: stack))
        (.comma :: (itemTokens (y :: xs) ++ ts)) =
          run (.expect .value (.items (ofJson x :: done) :: stack)) (itemTokens (y :: xs) ++ ts) :=
      rfl
    have hdone : (ofItems (x :: y :: xs)).reverse ++ done =
        (ofItems (y :: xs)).reverse ++ ofJson x :: done := by
      rw [ofItems, List.reverse_cons, List.append_assoc, List.singleton_append]
    rw [itemTokens, List.append_assoc, run_tokenList x, List.isEmpty_cons, if_neg (by simp),
      List.cons_append, hcomma, run_itemTokens (y :: xs) (List.cons_ne_nil y xs), hdone]

theorem run_memberTokens : ∀ (ms : List (Text × Json)), ms ≠ [] →
    ∀ (done : List (Option Text × Reading)) (stack : List Frame) (ts : List Token),
    run (.expect .key (.members done none :: stack)) (memberTokens ms ++ ts) =
      run (.expect .separator (.members ((ofMembers ms).reverse ++ done) none :: stack)) ts
  | [], hne, _, _, _ => absurd rfl hne
  | [(k, v)], _, done, stack, ts => by
    rw [memberTokens, List.cons_append, run_cons rfl, List.cons_append, run_cons rfl,
      List.append_assoc, run_tokenList v]
    rfl
  | (k, v) :: m :: ms, _, done, stack, ts => by
    have hcomma : run (offer (ofJson v) (.members done (some k) :: stack))
        (.comma :: (memberTokens (m :: ms) ++ ts)) =
          run (.expect .key (.members ((some k, ofJson v) :: done) none :: stack))
            (memberTokens (m :: ms) ++ ts) :=
      rfl
    have hdone : (ofMembers ((k, v) :: m :: ms)).reverse ++ done =
        (ofMembers (m :: ms)).reverse ++ (some k, ofJson v) :: done := by
      rw [ofMembers, List.reverse_cons, List.append_assoc, List.singleton_append]
    rw [memberTokens, List.cons_append, run_cons rfl, List.cons_append, run_cons rfl,
      List.append_assoc, run_tokenList v, List.isEmpty_cons, if_neg (by simp), List.cons_append,
      hcomma, run_memberTokens (m :: ms) (List.cons_ne_nil m ms), hdone]

end

/-- A written value is read whole, and nothing follows it but white space. -/
theorem ofText_write (l : Layout) (j : Json) (hs : ∀ c ∈ s, isSpace c = true) :
    ofText (write l 0 j ++ s) = (ofJson j, true) := by
  have hblank : tokens s = [] := by
    rw [← List.append_nil s, tokens_space hs, tokens_nil]
  rw [ofText, tokens_write, hblank, run_tokenList]
  rfl

/-! ## How deep written values are nested -/

theorem itemsStrict_ofItems_iff {d : ℕ} {xs : List Json} :
    itemsStrict d (ofItems xs) ↔ ∀ x ∈ xs, isStrict d (ofJson x) := by
  induction xs with
  | nil => simp [ofItems, itemsStrict]
  | cons x xs ih =>
    rw [ofItems, itemsStrict, Bool.and_eq_true, ih, List.forall_mem_cons]

theorem membersStrict_ofMembers_iff {d : ℕ} {ms : List (Text × Json)} :
    membersStrict d (ofMembers ms) ↔ ∀ m ∈ ms, isStrict d (ofJson m.2) := by
  induction ms with
  | nil => simp [ofMembers, membersStrict]
  | cons m ms ih =>
    rw [ofMembers, membersStrict, Bool.and_eq_true, ih, List.forall_mem_cons, Option.isSome_some,
      Bool.true_and]

@[simp] theorem isStrict_ofJson_string (d : ℕ) (s : Text) : isStrict d (ofJson (.string s)) := rfl

@[simp] theorem isStrict_ofJson_bool (d : ℕ) (b : Bool) : isStrict d (ofJson (.bool b)) := rfl

@[simp] theorem isStrict_ofJson_null (d : ℕ) : isStrict d (ofJson .null) := rfl

@[simp] theorem isStrict_ofJson_array {d : ℕ} {xs : List Json} :
    isStrict (d + 1) (ofJson (.array xs)) ↔ ∀ x ∈ xs, isStrict d (ofJson x) := by
  simp [ofJson, isStrict, itemsStrict_ofItems_iff]

@[simp] theorem isStrict_ofJson_object {d : ℕ} {ms : List (Text × Json)} :
    isStrict (d + 1) (ofJson (.object ms)) ↔ ∀ m ∈ ms, isStrict d (ofJson m.2) := by
  simp [ofJson, isStrict, membersStrict_ofMembers_iff]

end Reading

end CallManual.Json
