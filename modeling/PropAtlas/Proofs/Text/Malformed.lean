import PropAtlas.Proofs.Text.Utf8
import Mathlib.Data.List.Basic

/-! Bytes that are the encoding of no text. A first byte announces how many bytes belong together, and the
number they hold has to be that of a character and to need so many bytes. What is not so is named here,
by the number and not by the bytes that are tested for it; that these tests find exactly the
malformed bytes, and that the encoding is the one that strings are stored in, is proved below. -/

namespace PropAtlas.Utf8

/-! ### Sequences of bytes -/

/-- How many bytes a first byte announces, itself included, and zero for one that starts no sequence. -/
def announced (a : UInt8) : Nat :=
  if a.toNat < 0x80 then 1
  else if a.toNat < 0xC0 then 0
  else if a.toNat < 0xE0 then 2
  else if a.toNat < 0xF0 then 3
  else if a.toNat < 0xF8 then 4
  else 0

/-- A first byte and as many bytes after it as it announces. -/
structure IsSequence (a : UInt8) (tail : List UInt8) : Prop where
  length : announced a = tail.length + 1
  continues : ∀ b ∈ tail, isContinuation b = true

/-- What is left of a first byte for the number, by how many bytes come after it. -/
def room : Nat → Nat
  | 0 => 0x80
  | 1 => 0x20
  | 2 => 0x10
  | _ => 0x08

/-- The number that a sequence holds: the rest of the first byte, and then six bits of each of the
others. -/
def number (a : UInt8) (tail : List UInt8) : Nat :=
  tail.foldl (fun n b => n * 0x40 + low b) (a.toNat % room tail.length)

/-- The least number that needs this many bytes after the first one. -/
def least : Nat → Nat
  | 0 => 0
  | 1 => 0x80
  | 2 => 0x800
  | _ => 0x10000

variable {a : UInt8} {tail rest bytes : List UInt8}

theorem announced_eq_zero_iff : announced a = 0 ↔ isContinuation a = true ∨ 0xF8 ≤ a.toNat := by
  rw [isContinuation_iff]
  constructor
  · intro h
    rw [announced] at h
    split_ifs at h <;> omega
  · intro h
    rw [announced]
    split_ifs <;> omega

theorem announced_one (h : a.toNat < 0x80) : announced a = 1 := if_pos h

theorem announced_two (h : 0xC0 ≤ a.toNat) (h' : a.toNat < 0xE0) : announced a = 2 := by
  rw [announced, if_neg (by omega), if_neg (by omega), if_pos h']

theorem announced_three (h : 0xE0 ≤ a.toNat) (h' : a.toNat < 0xF0) : announced a = 3 := by
  rw [announced, if_neg (by omega), if_neg (by omega), if_neg (by omega), if_pos h']

theorem announced_four (h : 0xF0 ≤ a.toNat) (h' : a.toNat < 0xF8) : announced a = 4 := by
  rw [announced, if_neg (by omega), if_neg (by omega), if_neg (by omega), if_neg (by omega), if_pos h']

theorem number_one (a : UInt8) : number a [] = a.toNat % 0x80 := rfl

theorem number_two (a b : UInt8) : number a [b] = a.toNat % 0x20 * 0x40 + b.toNat % 0x40 := rfl

theorem number_three (a b c : UInt8) :
    number a [b, c] = (a.toNat % 0x10 * 0x40 + b.toNat % 0x40) * 0x40 + c.toNat % 0x40 := rfl

theorem number_four (a b c d : UInt8) : number a [b, c, d] =
    ((a.toNat % 0x08 * 0x40 + b.toNat % 0x40) * 0x40 + c.toNat % 0x40) * 0x40 + d.toNat % 0x40 := rfl

theorem IsSequence.cases (h : IsSequence a tail) :
    (tail = [] ∧ a.toNat < 0x80) ∨
    (∃ b, tail = [b] ∧ 0xC0 ≤ a.toNat ∧ a.toNat < 0xE0 ∧ isContinuation b = true) ∨
    (∃ b c, tail = [b, c] ∧ 0xE0 ≤ a.toNat ∧ a.toNat < 0xF0 ∧ isContinuation b = true ∧
      isContinuation c = true) ∨
    ∃ b c d, tail = [b, c, d] ∧ 0xF0 ≤ a.toNat ∧ a.toNat < 0xF8 ∧ isContinuation b = true ∧
      isContinuation c = true ∧ isContinuation d = true := by
  obtain ⟨hlength, hcontinues⟩ := h
  unfold announced at hlength
  split_ifs at hlength with h₁ h₂ h₃ h₄ h₅
  · have htail : tail = [] := List.length_eq_zero_iff.mp (by omega)
    exact .inl ⟨htail, h₁⟩
  · obtain ⟨b, rfl⟩ := List.length_eq_one_iff.mp (show tail.length = 1 by omega)
    refine .inr (.inl ⟨b, rfl, by omega, h₃, hcontinues b ?_⟩)
    simp
  · obtain ⟨b, c, rfl⟩ := List.length_eq_two.mp (show tail.length = 2 by omega)
    refine .inr (.inr (.inl ⟨b, c, rfl, by omega, h₄, hcontinues b ?_, hcontinues c ?_⟩)) <;> simp
  · obtain ⟨b, c, d, rfl⟩ := List.length_eq_three.mp (show tail.length = 3 by omega)
    refine .inr (.inr (.inr ⟨b, c, d, rfl, by omega, h₅, hcontinues b ?_, hcontinues c ?_,
      hcontinues d ?_⟩)) <;> simp

/-- A sequence encodes a character if its number is that of a character and is not written with more
bytes than it needs. -/
theorem encodeChar_number (h : IsSequence a tail) (hleast : least tail.length ≤ number a tail)
    (hvalid : (number a tail).isValidChar) : encodeChar (Char.ofNat (number a tail)) = a :: tail := by
  have hchar : (Char.ofNat (number a tail)).toNat = number a tail := by
    rw [Char.ofNat, dif_pos hvalid]
    rfl
  have hbyte {n : Nat} {b : UInt8} (hn : n = b.toNat) : n.toUInt8 = b := by
    rw [hn, Nat.toUInt8_eq, UInt8.ofNat_toNat]
  have hlt : number a tail < 0x110000 := hvalid.elim (by omega) (·.2)
  rw [encodeChar, hchar]
  obtain ⟨rfl, ha⟩ | ⟨b, rfl, ha, ha', hb⟩ | ⟨b, c, rfl, ha, ha', hb, hc⟩ |
    ⟨b, c, d, rfl, ha, ha', hb, hc, hd⟩ := h.cases
  · rw [number_one, if_pos (by omega), hbyte (b := a) (by omega)]
  · rw [isContinuation_iff] at hb
    rw [number_two] at hleast ⊢
    change 0x80 ≤ _ at hleast
    rw [if_neg (by omega), if_pos (by omega), hbyte (b := a) (by omega), hbyte (b := b) (by omega)]
  · rw [isContinuation_iff] at hb hc
    rw [number_three] at hleast ⊢
    change 0x800 ≤ _ at hleast
    rw [if_neg (by omega), if_neg (by omega), if_pos (by omega), hbyte (b := a) (by omega),
      hbyte (b := b) (by omega), hbyte (b := c) (by omega)]
  · rw [isContinuation_iff] at hb hc hd
    rw [number_four] at hleast hlt ⊢
    change 0x10000 ≤ _ at hleast
    rw [if_neg (by omega), if_neg (by omega), if_neg (by omega), hbyte (b := a) (by omega),
      hbyte (b := b) (by omega), hbyte (b := c) (by omega), hbyte (b := d) (by omega)]

/-- The bytes of a character are a sequence that holds the number of the character, with no more bytes than
it needs. -/
theorem exists_sequence (c : Char) :
    ∃ a tail, encodeChar c = a :: tail ∧ IsSequence a tail ∧ number a tail = c.toNat ∧
      least tail.length ≤ c.toNat := by
  have hvalid : c.toNat < 0xD800 ∨ 0xDFFF < c.toNat ∧ c.toNat < 0x110000 := c.valid
  rw [encodeChar]
  generalize c.toNat = n at hvalid
  have hcont {m : Nat} (hm : m < 0x40) : isContinuation (0x80 + m).toUInt8 = true := by
    rw [isContinuation_iff, toNat_toUInt8 (by omega)]
    omega
  split_ifs with h₁ h₂ h₃
  · have ha : n.toUInt8.toNat = n := toNat_toUInt8 (by omega)
    refine ⟨_, _, rfl, ⟨announced_one (by omega), by simp⟩, ?_, Nat.zero_le _⟩
    rw [number_one, ha]
    omega
  · have ha := toNat_toUInt8 (n := 0xC0 + n / 0x40) (by omega)
    have hb := toNat_toUInt8 (n := 0x80 + n % 0x40) (by omega)
    refine ⟨_, _, rfl, ⟨announced_two (by omega) (by omega), ?_⟩, ?_, Nat.not_lt.mp h₁⟩
    · simp only [List.forall_mem_cons]
      exact ⟨hcont (by omega), by simp⟩
    · rw [number_two, ha, hb]
      omega
  · have ha := toNat_toUInt8 (n := 0xE0 + n / 0x1000) (by omega)
    have hb := toNat_toUInt8 (n := 0x80 + n / 0x40 % 0x40) (by omega)
    have hd := toNat_toUInt8 (n := 0x80 + n % 0x40) (by omega)
    refine ⟨_, _, rfl, ⟨announced_three (by omega) (by omega), ?_⟩, ?_, Nat.not_lt.mp h₂⟩
    · simp only [List.forall_mem_cons]
      exact ⟨hcont (by omega), hcont (by omega), by simp⟩
    · rw [number_three, ha, hb, hd]
      omega
  · have ha := toNat_toUInt8 (n := 0xF0 + n / 0x40000) (by omega)
    have hb := toNat_toUInt8 (n := 0x80 + n / 0x1000 % 0x40) (by omega)
    have hd := toNat_toUInt8 (n := 0x80 + n / 0x40 % 0x40) (by omega)
    have he := toNat_toUInt8 (n := 0x80 + n % 0x40) (by omega)
    refine ⟨_, _, rfl, ⟨announced_four (by omega) (by omega), ?_⟩, ?_, Nat.not_lt.mp h₃⟩
    · simp only [List.forall_mem_cons]
      exact ⟨hcont (by omega), hcont (by omega), hcont (by omega), by simp⟩
    · rw [number_four, ha, hb, hd, he]
      omega

/-! ### Bytes that are not UTF-8 -/

/-- Bytes that no character starts. -/
inductive Malformed : List UInt8 → Prop where
  /-- A continuation byte that continues nothing. -/
  | stray {b : UInt8} {rest : List UInt8} (h : isContinuation b = true) : Malformed (b :: rest)
  /-- A byte that would announce more than four bytes. -/
  | excessive {b : UInt8} {rest : List UInt8} (h : 0xF8 ≤ b.toNat) : Malformed (b :: rest)
  /-- Fewer continuation bytes than announced, before the end or before another byte. -/
  | truncated {a : UInt8} {tail rest : List UInt8} (hlength : tail.length + 1 < announced a)
      (htail : ∀ b ∈ tail, isContinuation b = true)
      (hrest : ∀ b ∈ rest.head?, isContinuation b = false) : Malformed (a :: (tail ++ rest))
  /-- More bytes than the number needs. -/
  | overlong {a : UInt8} {tail rest : List UInt8} (h : IsSequence a tail)
      (hnumber : number a tail < least tail.length) : Malformed (a :: (tail ++ rest))
  /-- Half of a surrogate pair. -/
  | surrogate {a : UInt8} {tail rest : List UInt8} (h : IsSequence a tail)
      (hnumber : 0xD800 ≤ number a tail ∧ number a tail ≤ 0xDFFF) : Malformed (a :: (tail ++ rest))
  /-- A number above all code points. -/
  | tooLarge {a : UInt8} {tail rest : List UInt8} (h : IsSequence a tail)
      (hnumber : 0x10FFFF < number a tail) : Malformed (a :: (tail ++ rest))

theorem character_or_malformed (a : UInt8) (rest : List UInt8) :
    (∃ c left, a :: rest = encodeChar c ++ left) ∨ Malformed (a :: rest) := by
  by_cases hstart : announced a = 0
  · rcases announced_eq_zero_iff.mp hstart with hcont | hlarge
    · exact .inr (.stray hcont)
    · exact .inr (.excessive hlarge)
  have hall : ∀ b ∈ rest.takeWhile isContinuation, isContinuation b = true :=
    List.all_eq_true.mp List.all_takeWhile
  by_cases hlength : announced a ≤ (rest.takeWhile isContinuation).length + 1
  · -- There are enough continuation bytes, and the number decides.
    have hprefix : (rest.takeWhile isContinuation).take (announced a - 1) <+: rest :=
      (List.take_prefix _ _).trans (List.takeWhile_prefix _)
    have hseq : IsSequence a ((rest.takeWhile isContinuation).take (announced a - 1)) := by
      refine ⟨?_, fun b hb => hall b (List.mem_of_mem_take hb)⟩
      rw [List.length_take]
      omega
    generalize (rest.takeWhile isContinuation).take (announced a - 1) = tail at hprefix hseq
    obtain ⟨left, rfl⟩ := hprefix
    by_cases hleast : number a tail < least tail.length
    · exact .inr (.overlong hseq hleast)
    by_cases hvalid : (number a tail).isValidChar
    · exact .inl ⟨_, left, by rw [encodeChar_number hseq (by omega) hvalid, List.cons_append]⟩
    · by_cases hlarge : 0x10FFFF < number a tail
      · exact .inr (.tooLarge hseq hlarge)
      · exact .inr (.surrogate hseq (by omega))
  · have hsplit := List.takeWhile_append_dropWhile (p := isContinuation) (l := rest)
    rw [← hsplit]
    refine .inr (.truncated (by omega) hall ?_)
    intro b hb
    have hnot := List.head?_dropWhile_not isContinuation rest
    rw [Option.mem_def.mp hb] at hnot
    exact hnot

theorem Malformed.ne_character (h : Malformed bytes) (c : Char) (left : List UInt8) :
    bytes ≠ encodeChar c ++ left := by
  obtain ⟨a, tail, hc, hseq, hnumber, hleast⟩ := exists_sequence c
  have hvalid : c.toNat < 0xD800 ∨ 0xDFFF < c.toNat ∧ c.toNat < 0x110000 := c.valid
  rw [hc, List.cons_append]
  have hlength := hseq.length
  intro heq'
  -- A sequence is told from what follows it by the length that its first byte announces.
  have hsame {tail' rest : List UInt8} (hseq' : IsSequence a tail')
      (h : tail' ++ rest = tail ++ left) : tail' = tail :=
    List.append_inj_left h (by have := hseq'.length; omega)
  cases h with
  | stray hb =>
    obtain ⟨rfl, -⟩ := List.cons.inj heq'
    have := announced_eq_zero_iff.mpr (.inl hb)
    omega
  | excessive hb =>
    obtain ⟨rfl, -⟩ := List.cons.inj heq'
    have := announced_eq_zero_iff.mpr (.inr hb)
    omega
  | truncated hshort htail hrest =>
    obtain ⟨rfl, heq⟩ := List.cons.inj heq'
    rcases List.append_eq_append_iff.mp heq with ⟨more, rfl, rfl⟩ | ⟨more, rfl, rfl⟩
    · cases more with
      | nil =>
        rw [List.append_nil] at hlength
        omega
      | cons b more =>
        have hcont := hseq.continues b (by simp)
        rw [hrest b (by simp)] at hcont
        cases hcont
    · rw [List.length_append] at hshort
      omega
  | overlong hseq' hbad =>
    obtain ⟨rfl, heq⟩ := List.cons.inj heq'
    obtain rfl := hsame hseq' heq
    omega
  | surrogate hseq' hbad =>
    obtain ⟨rfl, heq⟩ := List.cons.inj heq'
    obtain rfl := hsame hseq' heq
    omega
  | tooLarge hseq' hbad =>
    obtain ⟨rfl, heq⟩ := List.cons.inj heq'
    obtain rfl := hsame hseq' heq
    omega

/-! ### Decoding -/

/-- What was decoded starts with a character whose bytes come first. -/
theorem decode_cons_eq_ok {cs : List Char} (h : decode (a :: rest) = .ok cs) :
    ∃ c ds left, cs = c :: ds ∧ a :: rest = encodeChar c ++ left ∧ decode left = .ok ds := by
  have hok (tail left : List UInt8) (n : Nat) (hrest : rest = tail ++ left)
      (hmap : (Char.ofNat n :: ·) <$> decode left = .ok cs) (hseq : IsSequence a tail)
      (hn : number a tail = n) (hleast : least tail.length ≤ n)
      (hvalid : n < 0xD800 ∨ 0xDFFF < n ∧ n < 0x110000) :
      ∃ c ds left, cs = c :: ds ∧ a :: rest = encodeChar c ++ left ∧ decode left = .ok ds := by
    subst hn
    have hbytes : a :: rest = encodeChar (Char.ofNat (number a tail)) ++ left := by
      rw [encodeChar_number hseq hleast hvalid, List.cons_append, hrest]
    cases hleft : decode left with
    | error f =>
      rw [hleft] at hmap
      cases hmap
    | ok ds =>
      rw [hleft] at hmap
      cases hmap
      exact ⟨_, ds, left, rfl, hbytes, hleft⟩
  rw [decode.eq_def] at h
  dsimp only at h
  simp only [UInt8.lt_iff_toNat_lt, UInt8.le_iff_toNat_le, Bool.or_eq_true, decide_eq_true_eq,
    UInt8.reduceToNat] at h
  split_ifs at h with h₁ h₂ h₃ h₄
  · refine hok [] rest _ rfl h ⟨announced_one h₁, by simp⟩ ?_ (Nat.zero_le _) (by omega)
    rw [number_one]
    omega
  · cases rest with
    | nil => cases h
    | cons b left =>
      simp only at h
      split_ifs at h with hb
      have hb' := isContinuation_iff.mp hb
      refine hok [b] left _ rfl h ⟨announced_two (by omega) h₃, by simp [hb]⟩ rfl ?_ ?_
      · change 0x80 ≤ _
        unfold low
        omega
      · unfold low
        omega
  · rcases rest with _ | ⟨b, _ | ⟨c, left⟩⟩
    · cases h
    · simp only at h
      split_ifs at h
    · simp only [Bool.and_eq_true] at h
      split_ifs at h with hbytes
      obtain ⟨hb, hc⟩ := hbytes
      have hb' := isSecond_iff.mp hb
      have hcont := isContinuation_iff.mpr hb'.1
      refine hok [b, c] left _ rfl h ⟨announced_three (by omega) h₄, by simp [hcont, hc]⟩ ?_ ?_ ?_
      · rw [number_three, low, low]
        omega
      · change 0x800 ≤ _
        unfold low
        omega
      · unfold low
        omega
  · rcases rest with _ | ⟨b, _ | ⟨c, _ | ⟨d, left⟩⟩⟩
    · cases h
    · simp only at h
      split_ifs at h
    · simp only at h
      split_ifs at h
    · simp only [Bool.and_eq_true] at h
      split_ifs at h with hbytes
      obtain ⟨⟨hb, hc⟩, hd⟩ := hbytes
      have hb' := isSecond_iff.mp hb
      have hcont := isContinuation_iff.mpr hb'.1
      refine hok [b, c, d] left _ rfl h
        ⟨announced_four (by omega) (by omega), by simp [hcont, hc, hd]⟩ ?_ ?_ ?_
      · rw [number_four, low, low, low]
        omega
      · change 0x10000 ≤ _
        unfold low
        omega
      · unfold low
        omega

theorem encode_of_decode {cs : List Char} (h : decode bytes = .ok cs) : encode cs = bytes := by
  induction cs generalizing bytes with
  | nil =>
    cases bytes with
    | nil => rfl
    | cons a rest =>
      obtain ⟨c, ds, left, hcs, -⟩ := decode_cons_eq_ok h
      cases hcs
  | cons c cs ih =>
    cases bytes with
    | nil => cases h
    | cons a rest =>
      obtain ⟨d, ds, left, hcs, hbytes, hleft⟩ := decode_cons_eq_ok h
      obtain ⟨rfl, rfl⟩ := List.cons.inj hcs
      rw [hbytes, ← ih hleft, encode, List.flatMap_cons, encode]

theorem decode_eq_ok_iff {cs : List Char} : decode bytes = .ok cs ↔ encode cs = bytes :=
  ⟨encode_of_decode, fun h => h ▸ decode_encode cs⟩

theorem encode_cons (c : Char) (cs : List Char) : encode (c :: cs) = encodeChar c ++ encode cs :=
  List.flatMap_cons

theorem decode_encode_append (cs : List Char) (rest : List UInt8) :
    decode (encode cs ++ rest) = (cs ++ ·) <$> decode rest := by
  induction cs with
  | nil =>
    change decode rest = _
    cases decode rest <;> rfl
  | cons c cs ih =>
    rw [encode_cons, List.append_assoc, decode_encodeChar, ih]
    cases decode rest <;> rfl

/-- Bytes are the encoding of a text unless, after the encoding of some text, there is something that no
character starts with. -/
theorem not_encoding_iff :
    (¬ ∃ cs, encode cs = bytes) ↔ ∃ cs rest, bytes = encode cs ++ rest ∧ Malformed rest := by
  constructor
  · intro h
    -- By length: a character has at least one byte.
    induction hn : bytes.length using Nat.strongRecOn generalizing bytes with
    | _ n ih =>
    cases bytes with
    | nil => exact absurd ⟨[], rfl⟩ h
    | cons a rest =>
      rcases character_or_malformed a rest with ⟨c, left, hc⟩ | hbad
      · obtain ⟨b, tail, hb, -⟩ := exists_sequence c
        have hlength : left.length < n := by
          rw [← hn, hc, hb, List.cons_append, List.length_cons, List.length_append]
          omega
        have hleft : ¬ ∃ cs, encode cs = left := by
          rintro ⟨cs, rfl⟩
          exact h ⟨c :: cs, by rw [hc, encode_cons]⟩
        obtain ⟨cs, bad, rfl, hbad⟩ := ih left.length hlength hleft rfl
        exact ⟨c :: cs, bad, by rw [hc, encode_cons, List.append_assoc], hbad⟩
      · exact ⟨[], a :: rest, rfl, hbad⟩
  · rintro ⟨cs, rest, rfl, hbad⟩ ⟨ds, hds⟩
    have hdecode := decode_eq_ok_iff.mpr hds
    rw [decode_encode_append] at hdecode
    cases hrest : decode rest with
    | error f =>
      rw [hrest] at hdecode
      cases hdecode
    | ok es =>
      have hes := encode_of_decode hrest
      cases es with
      | nil =>
        obtain rfl : rest = [] := hes.symm
        cases hbad
      | cons c es => exact hbad.ne_character c (encode es) (by rw [← hes, encode_cons])

theorem encodeChar_eq_utf8EncodeChar (c : Char) : encodeChar c = String.utf8EncodeChar c := by
  have hvalid : c.toNat < 0xD800 ∨ 0xDFFF < c.toNat ∧ c.toNat < 0x110000 := c.valid
  have hval : c.val.toNat = c.toNat := rfl
  rw [encodeChar, String.utf8EncodeChar, hval]
  generalize c.toNat = n at hvalid
  have hbyte {m k : Nat} (h : m = k) : m.toUInt8 = UInt8.ofNat k := by rw [h, Nat.toUInt8_eq]
  by_cases h₁ : n < 0x80
  · rw [if_pos h₁, if_pos (by omega), hbyte rfl]
  by_cases h₂ : n < 0x800
  · rw [if_neg h₁, if_pos h₂, if_neg (by omega), if_pos (by omega),
      hbyte (show 0xC0 + n / 0x40 = n / 64 % 32 + 192 by omega),
      hbyte (show 0x80 + n % 0x40 = n % 64 + 128 by omega)]
  by_cases h₃ : n < 0x10000
  · rw [if_neg h₁, if_neg h₂, if_pos h₃, if_neg (by omega), if_neg (by omega), if_pos (by omega),
      hbyte (show 0xE0 + n / 0x1000 = n / 4096 % 16 + 224 by omega),
      hbyte (show 0x80 + n / 0x40 % 0x40 = n / 64 % 64 + 128 by omega),
      hbyte (show 0x80 + n % 0x40 = n % 64 + 128 by omega)]
  · rw [if_neg h₁, if_neg h₂, if_neg h₃, if_neg (by omega), if_neg (by omega), if_neg (by omega),
      hbyte (show 0xF0 + n / 0x40000 = n / 262144 % 8 + 240 by omega),
      hbyte (show 0x80 + n / 0x1000 % 0x40 = n / 4096 % 64 + 128 by omega),
      hbyte (show 0x80 + n / 0x40 % 0x40 = n / 64 % 64 + 128 by omega),
      hbyte (show 0x80 + n % 0x40 = n % 64 + 128 by omega)]

/-- The encoding is the one that strings are stored in. -/
theorem toByteArray_encode (cs : List Char) : (encode cs).toByteArray = cs.utf8Encode := by
  have hchars : encodeChar = String.utf8EncodeChar := funext encodeChar_eq_utf8EncodeChar
  rw [encode, hchars, List.utf8Encode]

theorem utf8Encode_eq_iff {cs : List Char} :
    cs.utf8Encode = bytes.toByteArray ↔ decode bytes = .ok cs := by
  rw [← toByteArray_encode, List.toByteArray_inj, decode_eq_ok_iff]

theorem isValidUTF8_iff : bytes.toByteArray.IsValidUTF8 ↔ ∃ cs, decode bytes = .ok cs := by
  constructor
  · rintro ⟨cs, hcs⟩
    exact ⟨cs, utf8Encode_eq_iff.mp hcs.symm⟩
  · rintro ⟨cs, hcs⟩
    exact ⟨cs, (utf8Encode_eq_iff.mpr hcs).symm⟩

end PropAtlas.Utf8
