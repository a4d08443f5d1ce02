import CallManual.Json.Token
import Mathlib.Data.Nat.Notation
import Mathlib.Tactic.SplitIfs

/-!
# Written JSON as tokens

A written value is cut back into its tokens whatever follows it, in every layout: white space only
stands between tokens, and a written string ends at the first quote that is not escaped.
-/
namespace CallManual.Json
open Text

variable {t rest s : Text} {c : Char} {k : Token}

theorem tokens_eq (t : Text) : tokens t =
    match t.dropWhile isSpace with
    | [] => []
    | c :: r =>
      match readToken? c r with
      | none => [.bad]
      | some (k, rest) => k :: tokens rest := by
  rw [tokens]
  split
  · next h => rw [h]
  · next c r h =>
    rw [h]
    dsimp only
    split
    · next h => rw [h]
    · next h => rw [h]

theorem tokens_space (hs : ∀ c ∈ s, isSpace c = true) (t : Text) : tokens (s ++ t) = tokens t := by
  rw [tokens_eq, tokens_eq t, List.dropWhile_append_of_pos hs]

theorem tokens_nil : tokens [] = [] := by
  rw [tokens_eq]
  rfl

theorem tokens_cons (hc : isSpace c = false) (h : readToken? c t = some (k, rest)) :
    tokens (c :: t) = k :: tokens rest := by
  rw [tokens_eq, List.dropWhile_cons_of_neg (by simp [hc])]
  simp only [h]

theorem tokens_gap (l : Layout) (d : ℕ) (t : Text) : tokens (l.gap d ++ t) = tokens t := by
  refine tokens_space (fun c hc => ?_) t
  cases l with
  | compact => cases hc
  | pretty =>
    rcases List.mem_cons.mp hc with rfl | hc
    · rfl
    · rw [List.eq_of_mem_replicate hc]
      rfl

theorem tokens_openArray (t : Text) : tokens ('[' :: t) = .openArray :: tokens t :=
  tokens_cons rfl rfl

theorem tokens_closeArray (t : Text) : tokens (']' :: t) = .closeArray :: tokens t :=
  tokens_cons rfl rfl

theorem tokens_openObject (t : Text) : tokens ('\x7b' :: t) = .openObject :: tokens t :=
  tokens_cons rfl rfl

theorem tokens_closeObject (t : Text) : tokens ('\x7d' :: t) = .closeObject :: tokens t :=
  tokens_cons rfl rfl

theorem tokens_comma (t : Text) : tokens (',' :: t) = .comma :: tokens t :=
  tokens_cons rfl rfl

theorem tokens_colon (l : Layout) (t : Text) : tokens (l.colon ++ t) = .colon :: tokens t := by
  cases l with
  | compact => exact tokens_cons rfl rfl
  | pretty =>
    have hspace : tokens (' ' :: t) = tokens t := tokens_space (s := [' ']) (by decide) t
    rw [← hspace]
    exact tokens_cons rfl rfl

/-! ## Strings -/

theorem hexQuad?_control : ∀ n < 0x20,
    hexQuad? '0' '0' (hexDigit (n / 16)) (hexDigit (n % 16)) = some n := by
  decide

theorem readString?_quote (t : Text) : readString? ('"' :: t) = some ([], t) := by
  rw [readString?.eq_def]
  rfl

theorem readString?_short {e : Char} (he : e ≠ 'u') (h : shortEscape? e = some c) (t : Text) :
    readString? ('\\' :: e :: t) = (readString? t).map fun (us, r) => (.char c :: us, r) := by
  rw [readString?.eq_def]
  simp [he, h]

theorem readString?_escaped {a b c d : Char} {n : ℕ} (h : hexQuad? a b c d = some n) (t : Text) :
    readString? ('\\' :: 'u' :: a :: b :: c :: d :: t) =
      (readString? t).map fun (us, r) => (.escaped n :: us, r) := by
  rw [readString?.eq_def]
  simp [h]

theorem readString?_plain (hquote : c ≠ '"') (hslash : c ≠ '\\') (hc : ¬ c.toNat < 0x20)
    (t : Text) : readString? (c :: t) = (readString? t).map fun (us, r) => (.char c :: us, r) := by
  rw [readString?.eq_def]
  simp only [if_neg hquote, if_neg hslash, if_neg hc]

theorem text?_escaped {n : ℕ} (h : n < 0xD800) (us : List CodeUnit) :
    CodeUnit.text? (.escaped n :: us) = (CodeUnit.text? us).map (Char.ofNat n :: ·) := by
  rw [CodeUnit.text?.eq_def]
  simp [h]

/-- What a character is written as is read as one piece, and that piece stands for it. -/
theorem exists_codeUnit (c : Char) : ∃ u : CodeUnit,
    (∀ t, readString? (escape c ++ t) = (readString? t).map fun (us, r) => (u :: us, r)) ∧
      ∀ us, CodeUnit.text? (u :: us) = (CodeUnit.text? us).map (c :: ·) := by
  have hshort {e c : Char} (he : e ≠ 'u') (h : shortEscape? e = some c) : ∃ u : CodeUnit,
      (∀ t, readString? (['\\', e] ++ t) = (readString? t).map fun (us, r) => (u :: us, r)) ∧
        ∀ us, CodeUnit.text? (u :: us) = (CodeUnit.text? us).map (c :: ·) :=
    ⟨.char c, readString?_short he h, fun us => rfl⟩
  unfold escape
  split_ifs with hquote hslash hback htab hline hpage hreturn hcontrol
  · exact hshort (by decide) (by rw [hquote]; rfl)
  · exact hshort (by decide) (by rw [hslash]; rfl)
  · exact hshort (by decide) (by rw [hback]; rfl)
  · exact hshort (by decide) (by rw [htab]; rfl)
  · exact hshort (by decide) (by rw [hline]; rfl)
  · exact hshort (by decide) (by rw [hpage]; rfl)
  · exact hshort (by decide) (by rw [hreturn]; rfl)
  · refine ⟨.escaped c.toNat, readString?_escaped (hexQuad?_control c.toNat hcontrol), fun us => ?_⟩
    rw [text?_escaped (by omega), Char.ofNat_toNat]
  · exact ⟨.char c, readString?_plain hquote hslash hcontrol, fun us => rfl⟩

theorem exists_codeUnits (s rest : Text) : ∃ us,
    readString? (s.flatMap escape ++ '"' :: rest) = some (us, rest) ∧
      CodeUnit.text? us = some s := by
  induction s with
  | nil => exact ⟨[], readString?_quote rest, rfl⟩
  | cons c s ih =>
    obtain ⟨us, hread, htext⟩ := ih
    obtain ⟨u, huread, hutext⟩ := exists_codeUnit c
    refine ⟨u :: us, ?_, ?_⟩
    · rw [List.flatMap_cons, List.append_assoc, huread, hread]
      rfl
    · rw [hutext, htext]
      rfl

theorem tokens_quote (s t : Text) : tokens (quote s ++ t) = .string (some s) :: tokens t := by
  obtain ⟨us, hread, htext⟩ := exists_codeUnits s t
  refine tokens_cons (t := s.flatMap escape ++ ['"'] ++ t) rfl ?_
  rw [List.append_assoc, List.singleton_append]
  change (readString? _).map _ = _
  rw [hread, Option.map_some, htext]

/-! ## Values -/

mutual

/-- The tokens of a value. -/
def tokenList : Json → List Token
  | null => [.null]
  | bool b => [.bool b]
  | string s => [.string (some s)]
  | array items => .openArray :: (itemTokens items ++ [.closeArray])
  | object members => .openObject :: (memberTokens members ++ [.closeObject])

def itemTokens : List Json → List Token
  | [] => []
  | x :: xs => tokenList x ++ if xs.isEmpty then [] else .comma :: itemTokens xs

def memberTokens : List (Text × Json) → List Token
  | [] => []
  | (k, v) :: ms =>
    .string (some k) :: .colon ::
      (tokenList v ++ if ms.isEmpty then [] else .comma :: memberTokens ms)

end

mutual

theorem tokens_write (l : Layout) (d : ℕ) :
    ∀ (j : Json) (t : Text), tokens (write l d j ++ t) = tokenList j ++ tokens t
  | null, t => tokens_cons rfl rfl
  | bool true, t => tokens_cons rfl rfl
  | bool false, t => tokens_cons rfl rfl
  | string s, t => tokens_quote s t
  | array items, t => by
    rw [write, tokenList, List.cons_append, tokens_openArray, List.append_assoc,
      tokens_writeItems l (d + 1) items]
    split
    · rw [List.singleton_append, tokens_closeArray]
      simp
    · rw [List.append_assoc, tokens_gap, List.singleton_append, tokens_closeArray]
      simp
  | object members, t => by
    rw [write, tokenList, List.cons_append, tokens_openObject, List.append_assoc,
      tokens_writeMembers l (d + 1) members]
    split
    · rw [List.singleton_append, tokens_closeObject]
      simp
    · rw [List.append_assoc, tokens_gap, List.singleton_append, tokens_closeObject]
      simp

theorem tokens_writeItems (l : Layout) (d : ℕ) :
    ∀ (xs : List Json) (t : Text), tokens (writeItems l d xs ++ t) = itemTokens xs ++ tokens t
  | [], t => rfl
  | x :: xs, t => by
    rw [writeItems, itemTokens, List.append_assoc, List.append_assoc, tokens_gap,
      tokens_write l d x]
    split
    · simp
    · rw [List.cons_append, tokens_comma, tokens_writeItems l d xs]
      simp

theorem tokens_writeMembers (l : Layout) (d : ℕ) :
    ∀ (ms : List (Text × Json)) (t : Text),
      tokens (writeMembers l d ms ++ t) = memberTokens ms ++ tokens t
  | [], t => rfl
  | (k, v) :: ms, t => by
    rw [writeMembers, memberTokens, List.append_assoc, List.append_assoc, List.append_assoc,
      List.append_assoc, tokens_gap, tokens_quote, tokens_colon, tokens_write l d v]
    split
    · simp
    · rw [List.cons_append, tokens_comma, tokens_writeMembers l d ms]
      simp

end

end CallManual.Json
