import PropAtlas.Text.Utf8
import Mathlib.Tactic.SplitIfs

/-! What the bytes of a text decode to is the text: the strict decoder refuses no character and
changes none. -/

namespace PropAtlas.Utf8

/-! ### Bytes as numbers -/

theorem toNat_toUInt8 {n : Nat} (h : n < 256) : n.toUInt8.toNat = n := by
  rw [Nat.toUInt8_eq, UInt8.toNat_ofNat']
  omega

theorem not_lt_of_toNat_le {a b : UInt8} (h : b.toNat ≤ a.toNat) : ¬ a < b := by
  rw [UInt8.lt_iff_toNat_lt]
  omega

/-- The first bytes of characters that are longer than one byte. -/
theorem not_refused {a : UInt8} (h : 0xC2 ≤ a.toNat) (h' : a.toNat < 0xF5) :
    ¬ (a < 0xC2 || 0xF5 ≤ a) = true := by
  simp only [Bool.or_eq_true, decide_eq_true_eq, UInt8.lt_iff_toNat_lt, UInt8.le_iff_toNat_le,
    UInt8.reduceToNat]
  omega

theorem isContinuation_iff {b : UInt8} :
    isContinuation b = true ↔ 0x80 ≤ b.toNat ∧ b.toNat < 0xC0 := by
  simp [isContinuation, UInt8.le_iff_toNat_le, UInt8.lt_iff_toNat_lt]

theorem isSecond_iff {a b : UInt8} :
    isSecond a b = true ↔ (0x80 ≤ b.toNat ∧ b.toNat < 0xC0) ∧
      (a.toNat = 0xE0 → 0xA0 ≤ b.toNat) ∧ (a.toNat = 0xED → b.toNat < 0xA0) ∧
      (a.toNat = 0xF0 → 0x90 ≤ b.toNat) ∧ (a.toNat = 0xF4 → b.toNat < 0x90) := by
  simp only [isSecond, isContinuation, Bool.and_eq_true, Bool.not_eq_true', Bool.and_eq_false_imp,
    beq_iff_eq, decide_eq_true_eq, decide_eq_false_iff_not, UInt8.le_iff_toNat_le,
    UInt8.lt_iff_toNat_lt, ← UInt8.toNat_inj, UInt8.reduceToNat, Nat.not_lt, Nat.not_le, and_assoc]

/-! ### Characters of one to four bytes -/

theorem decode_one {a : UInt8} (ha : a.toNat < 0x80) (rest : List UInt8) :
    decode (a :: rest) = (Char.ofNat a.toNat :: ·) <$> decode rest := by
  have h : a < 0x80 := UInt8.lt_iff_toNat_lt.mpr ha
  rw [decode.eq_def]
  exact if_pos h

theorem decode_two {a b : UInt8} (ha : 0xC2 ≤ a.toNat) (ha' : a.toNat < 0xE0)
    (hb : isContinuation b = true) (rest : List UInt8) :
    decode (a :: b :: rest) =
      (Char.ofNat (a.toNat % 0x20 * 0x40 + low b) :: ·) <$> decode rest := by
  have h₁ : ¬ a < 0x80 := not_lt_of_toNat_le (by simp; omega)
  have h₂ := not_refused ha (by omega)
  have h₃ : a < 0xE0 := UInt8.lt_iff_toNat_lt.mpr ha'
  rw [decode.eq_def]
  dsimp only
  rw [if_neg h₁, if_neg h₂, if_pos h₃, if_pos hb]

theorem decode_three {a b c : UInt8} (ha : 0xE0 ≤ a.toNat) (ha' : a.toNat < 0xF0)
    (hb : isSecond a b = true) (hc : isContinuation c = true) (rest : List UInt8) :
    decode (a :: b :: c :: rest) =
      (Char.ofNat (a.toNat % 0x10 * 0x1000 + low b * 0x40 + low c) :: ·) <$> decode rest := by
  have h₁ : ¬ a < 0x80 := not_lt_of_toNat_le (by simp; omega)
  have h₂ := not_refused (a := a) (by omega) (by omega)
  have h₃ : ¬ a < 0xE0 := not_lt_of_toNat_le ha
  have h₄ : a < 0xF0 := UInt8.lt_iff_toNat_lt.mpr ha'
  rw [decode.eq_def]
  dsimp only
  rw [if_neg h₁, if_neg h₂, if_neg h₃, if_pos h₄, hb, hc]
  rfl

theorem decode_four {a b c d : UInt8} (ha : 0xF0 ≤ a.toNat) (ha' : a.toNat < 0xF5)
    (hb : isSecond a b = true) (hc : isContinuation c = true) (hd : isContinuation d = true)
    (rest : List UInt8) :
    decode (a :: b :: c :: d :: rest) =
      (Char.ofNat (a.toNat % 0x08 * 0x40000 + low b * 0x1000 + low c * 0x40 + low d) :: ·) <$>
        decode rest := by
  have h₁ : ¬ a < 0x80 := not_lt_of_toNat_le (by simp; omega)
  have h₂ := not_refused (a := a) (by omega) ha'
  have h₃ : ¬ a < 0xE0 := not_lt_of_toNat_le (by simp; omega)
  have h₄ : ¬ a < 0xF0 := not_lt_of_toNat_le ha
  rw [decode.eq_def]
  dsimp only
  rw [if_neg h₁, if_neg h₂, if_neg h₃, if_neg h₄, hb, hc, hd]
  rfl

/-- The decoder reads a character back and goes on after its bytes. -/
theorem decode_encodeChar (c : Char) (rest : List UInt8) :
    decode (encodeChar c ++ rest) = (c :: ·) <$> decode rest := by
  have hc : Char.ofNat c.toNat = c := Char.ofNat_toNat c
  -- No character is a surrogate or above U+10FFFF, which is what the second byte is tested for.
  have hvalid : c.toNat < 0xD800 ∨ 0xDFFF < c.toNat ∧ c.toNat < 0x110000 := c.valid
  rw [encodeChar]
  generalize c.toNat = n at hc hvalid ⊢
  split_ifs with h₁ h₂ h₃
  · have ha : n.toUInt8.toNat = n := toNat_toUInt8 (by omega)
    rw [List.singleton_append, decode_one (by omega), ha, hc]
  · have ha := toNat_toUInt8 (n := 0xC0 + n / 0x40) (by omega)
    have hb := toNat_toUInt8 (n := 0x80 + n % 0x40) (by omega)
    have hn : (0xC0 + n / 0x40) % 0x20 * 0x40 + (0x80 + n % 0x40) % 0x40 = n := by omega
    rw [List.cons_append, List.singleton_append,
      decode_two (by omega) (by omega) (isContinuation_iff.mpr (by omega)), low, ha, hb, hn, hc]
  · have ha := toNat_toUInt8 (n := 0xE0 + n / 0x1000) (by omega)
    have hb := toNat_toUInt8 (n := 0x80 + n / 0x40 % 0x40) (by omega)
    have hd := toNat_toUInt8 (n := 0x80 + n % 0x40) (by omega)
    have hn : (0xE0 + n / 0x1000) % 0x10 * 0x1000 + (0x80 + n / 0x40 % 0x40) % 0x40 * 0x40 +
        (0x80 + n % 0x40) % 0x40 = n := by omega
    rw [List.cons_append, List.cons_append, List.singleton_append,
      decode_three (by omega) (by omega) (isSecond_iff.mpr (by omega))
        (isContinuation_iff.mpr (by omega)), low, low, ha, hb, hd, hn, hc]
  · have ha := toNat_toUInt8 (n := 0xF0 + n / 0x40000) (by omega)
    have hb := toNat_toUInt8 (n := 0x80 + n / 0x1000 % 0x40) (by omega)
    have hd := toNat_toUInt8 (n := 0x80 + n / 0x40 % 0x40) (by omega)
    have he := toNat_toUInt8 (n := 0x80 + n % 0x40) (by omega)
    have hn : (0xF0 + n / 0x40000) % 0x08 * 0x40000 + (0x80 + n / 0x1000 % 0x40) % 0x40 * 0x1000 +
        (0x80 + n / 0x40 % 0x40) % 0x40 * 0x40 + (0x80 + n % 0x40) % 0x40 = n := by omega
    rw [List.cons_append, List.cons_append, List.cons_append, List.singleton_append,
      decode_four (by omega) (by omega) (isSecond_iff.mpr (by omega))
        (isContinuation_iff.mpr (by omega)) (isContinuation_iff.mpr (by omega)),
      low, low, low, ha, hb, hd, he, hn, hc]

theorem decode_encode (cs : List Char) : decode (encode cs) = .ok cs := by
  induction cs with
  | nil => rfl
  | cons c cs ih =>
    rw [encode, List.flatMap_cons, decode_encodeChar, ← encode, ih]
    rfl

end PropAtlas.Utf8
