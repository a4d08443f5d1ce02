import CallManual.Text.Utf8
import Mathlib.Data.Nat.Notation
import Mathlib.Tactic.SplitIfs

/-!
# Writing and reading UTF-8

The bytes of a text are read back as that text. The first byte of a character says how many follow,
and the range of the second shuts out what has a shorter form and what is no scalar value.
-/
namespace CallManual.Text

variable {a b c d : UInt8} {bs : List UInt8}

theorem toNat_toUInt8 {n : ℕ} (h : n < 256) : n.toUInt8.toNat = n := by
  simpa [Nat.toUInt8] using h

/-- A byte that may follow a leading byte. -/
def Continues (b : UInt8) : Prop := 0x80 ≤ b.toNat ∧ b.toNat ≤ 0xBF

theorem Continues.isContinuation (h : Continues b) : isContinuation b = true := by
  simpa [Text.isContinuation, UInt8.le_iff_toNat_le, Continues] using h

theorem scalars_one (h : a.toNat < 0x80) :
    scalars (a :: bs) = some (Char.ofNat a.toNat) :: scalars bs := by
  rw [scalars, if_pos (UInt8.lt_iff_toNat_lt.mpr h)]

theorem scalars_two (ha : 0xC2 ≤ a.toNat) (ha' : a.toNat ≤ 0xDF) (hb : Continues b) :
    scalars (a :: b :: bs) = some (Char.ofNat (a.toNat % 32 * 64 + low b)) :: scalars bs := by
  have hfirst : ¬ a < 0x80 := by simp [UInt8.lt_iff_toNat_lt]; omega
  have hlead : continuation? a = some (1, 0x80, 0xBF) := by
    simp [continuation?, UInt8.le_iff_toNat_le, ha, ha']
  have hsecond : ¬ (b < 0x80 ∨ 0xBF < b) := by
    simpa [UInt8.lt_iff_toNat_lt, Continues] using hb
  rw [scalars.eq_def]
  simp [hfirst, hlead, hsecond]

theorem continuation?_three (ha : 0xE0 ≤ a.toNat) (ha' : a.toNat ≤ 0xEF) :
    continuation? a = some (2, if a.toNat = 0xE0 then 0xA0 else 0x80,
      if a.toNat = 0xED then 0x9F else 0xBF) := by
  simp only [continuation?, UInt8.le_iff_toNat_le, ← UInt8.toNat_inj, Bool.and_eq_true,
    decide_eq_true_eq, UInt8.reduceToNat]
  grind

theorem scalars_three (ha : 0xE0 ≤ a.toNat) (ha' : a.toNat ≤ 0xEF) (hb : Continues b)
    (hlo : a.toNat = 0xE0 → 0xA0 ≤ b.toNat) (hhi : a.toNat = 0xED → b.toNat ≤ 0x9F)
    (hc : Continues c) : scalars (a :: b :: c :: bs) =
      some (Char.ofNat ((a.toNat % 16 * 64 + low b) * 64 + low c)) :: scalars bs := by
  have hfirst : ¬ a < 0x80 := by simp [UInt8.lt_iff_toNat_lt]; omega
  have hlead := continuation?_three ha ha'
  have hsecond : ¬ (b < (if a.toNat = 0xE0 then 0xA0 else 0x80) ∨
      (if a.toNat = 0xED then 0x9F else 0xBF) < b) := by
    obtain ⟨hb1, hb2⟩ := hb
    split_ifs <;> simp [UInt8.lt_iff_toNat_lt] <;> omega
  rw [scalars.eq_def]
  simp [hfirst, hlead, hsecond, hc.isContinuation]

theorem continuation?_four (ha : 0xF0 ≤ a.toNat) (ha' : a.toNat ≤ 0xF4) :
    continuation? a = some (3, if a.toNat = 0xF0 then 0x90 else 0x80,
      if a.toNat = 0xF4 then 0x8F else 0xBF) := by
  simp only [continuation?, UInt8.le_iff_toNat_le, ← UInt8.toNat_inj, Bool.and_eq_true,
    decide_eq_true_eq, UInt8.reduceToNat]
  grind

theorem scalars_four (ha : 0xF0 ≤ a.toNat) (ha' : a.toNat ≤ 0xF4) (hb : Continues b)
    (hlo : a.toNat = 0xF0 → 0x90 ≤ b.toNat) (hhi : a.toNat = 0xF4 → b.toNat ≤ 0x8F)
    (hc : Continues c) (hd : Continues d) : scalars (a :: b :: c :: d :: bs) =
      some (Char.ofNat (((a.toNat % 8 * 64 + low b) * 64 + low c) * 64 + low d)) ::
        scalars bs := by
  have hfirst : ¬ a < 0x80 := by simp [UInt8.lt_iff_toNat_lt]; omega
  have hlead := continuation?_four ha ha'
  have hsecond : ¬ (b < (if a.toNat = 0xF0 then 0x90 else 0x80) ∨
      (if a.toNat = 0xF4 then 0x8F else 0xBF) < b) := by
    obtain ⟨hb1, hb2⟩ := hb
    split_ifs <;> simp [UInt8.lt_iff_toNat_lt] <;> omega
  rw [scalars.eq_def]
  simp [hfirst, hlead, hsecond, hc.isContinuation, hd.isContinuation]

theorem continues_toUInt8 (n : ℕ) : Continues (0x80 + n % 64).toUInt8 := by
  rw [Continues, toNat_toUInt8 (by omega)]
  omega

theorem low_toUInt8 (n : ℕ) : low (0x80 + n % 64).toUInt8 = n % 64 := by
  rw [low, toNat_toUInt8 (by omega)]
  omega

theorem toNat_isScalar (c : Char) : c.toNat < 0xD800 ∨ 0xDFFF < c.toNat ∧ c.toNat < 0x110000 :=
  c.valid

theorem scalars_encodeChar (c : Char) (bs : List UInt8) :
    scalars (encodeChar c ++ bs) = some c :: scalars bs := by
  have hscalar := toNat_isScalar c
  have hc : Char.ofNat c.toNat = c := Char.ofNat_toNat c
  rw [encodeChar]
  split_ifs with h1 h2 h3
  · rw [List.singleton_append, scalars_one (by rw [toNat_toUInt8] <;> omega),
      toNat_toUInt8 (by omega), hc]
  · have ha : (0xC0 + c.toNat / 64).toUInt8.toNat = 0xC0 + c.toNat / 64 :=
      toNat_toUInt8 (by omega)
    have hn : (0xC0 + c.toNat / 64) % 32 * 64 + c.toNat % 64 = c.toNat := by omega
    change scalars (_ :: _ :: bs) = _
    rw [scalars_two (by omega) (by omega) (continues_toUInt8 _), low_toUInt8, ha, hn, hc]
  · have ha : (0xE0 + c.toNat / 4096).toUInt8.toNat = 0xE0 + c.toNat / 4096 :=
      toNat_toUInt8 (by omega)
    have hb : (0x80 + c.toNat / 64 % 64).toUInt8.toNat = 0x80 + c.toNat / 64 % 64 :=
      toNat_toUInt8 (by omega)
    have hn : ((0xE0 + c.toNat / 4096) % 16 * 64 + c.toNat / 64 % 64) * 64 + c.toNat % 64 =
        c.toNat := by
      omega
    change scalars (_ :: _ :: _ :: bs) = _
    rw [scalars_three (by omega) (by omega) (continues_toUInt8 _) (by omega) (by omega)
      (continues_toUInt8 _), low_toUInt8, low_toUInt8, ha, hn, hc]
  · have ha : (0xF0 + c.toNat / 262144).toUInt8.toNat = 0xF0 + c.toNat / 262144 :=
      toNat_toUInt8 (by omega)
    have hb : (0x80 + c.toNat / 4096 % 64).toUInt8.toNat = 0x80 + c.toNat / 4096 % 64 :=
      toNat_toUInt8 (by omega)
    have hn : (((0xF0 + c.toNat / 262144) % 8 * 64 + c.toNat / 4096 % 64) * 64 +
        c.toNat / 64 % 64) * 64 + c.toNat % 64 = c.toNat := by
      omega
    change scalars (_ :: _ :: _ :: _ :: bs) = _
    rw [scalars_four (by omega) (by omega) (continues_toUInt8 _) (by omega) (by omega)
      (continues_toUInt8 _) (continues_toUInt8 _), low_toUInt8, low_toUInt8, low_toUInt8, ha, hn,
      hc]

theorem scalars_toUtf8 (t : Text) : scalars (toUtf8 t) = t.map some := by
  induction t with
  | nil => simp [toUtf8, scalars]
  | cons c t ih =>
    rw [toUtf8, List.flatMap_cons, scalars_encodeChar, ← toUtf8, ih, List.map_cons]

theorem ofUtf8?_toUtf8 (t : Text) : ofUtf8? (toUtf8 t) = some t := by
  rw [ofUtf8?, scalars_toUtf8, List.mapM_map]
  exact List.mapM_pure.trans (congrArg some (List.map_id t))

end CallManual.Text
