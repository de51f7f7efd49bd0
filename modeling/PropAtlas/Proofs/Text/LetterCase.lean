import Mathlib.Data.List.Basic
import PropAtlas.Text.LetterCase

/-! Words in any case. A word of capitals that only their own small letters become is the upper case of
the same letters in any case, and of nothing else. -/

namespace PropAtlas.LetterCase

/-- The capitals that only their own small letters become: `ß`, `ı`, `ſ` and the ligatures give the
others. -/
def isPlain (c : Char) : Bool := c.isUpper && !"FILST".toList.contains c

theorem isPlain_of_le {c : Char} (h : 128 ≤ c.toNat) : isPlain c = false := by
  have hupper : c.isUpper = false := by
    apply decide_eq_false
    rintro ⟨-, hz⟩
    have hle : c.toNat ≤ 90 := UInt32.le_iff_toNat_le.mp hz
    omega
  rw [isPlain, hupper, Bool.false_and]

theorem isPlain_ofNat {n : Nat} (h : 128 ≤ n) : isPlain (Char.ofNat n) = false := by
  by_cases hvalid : n.isValidChar
  · have hn : (Char.ofNat n).toNat = n := by
      rw [Char.ofNat, dif_pos hvalid]
      rfl
    exact isPlain_of_le (by rwa [hn])
  · rw [Char.ofNat, dif_neg hvalid]
    decide

/-! ### The tables -/

set_option maxRecDepth 8000 in
theorem upperSequences_table : ∀ entry ∈ upperSequences,
    128 ≤ entry.1 ∧ ∃ n ∈ entry.2, isPlain (Char.ofNat n) = false := by decide

theorem upperRuns_eq : upperRuns = (0x61, 0x7A, 1, -32) :: upperRuns.tail := rfl

-- Two runs of one letter each reach back to `I` and `S`; the others stay past the ASCII letters.
set_option maxRecDepth 8000 in
theorem upperRuns_table : ∀ run ∈ upperRuns.tail,
    128 ≤ run.1 ∧ (128 ≤ run.1 + run.2.2.2 ∨
      run.1 = run.2.1 ∧ isPlain (Char.ofNat (run.1 + run.2.2.2).toNat) = false) := by decide

/-- Whether a letter lies in a run. -/
def Run.Holds (run : Run) (n : Nat) : Prop := ∃ k, n = run.1 + k * run.2.2.1 ∧ n ≤ run.2.1

/-- A letter is moved by a run that it lies in, or stays if it is in no run. -/
theorem shifted_cases (runs : List Run) (n : Nat) :
    (∃ run ∈ runs, run.Holds n ∧ shifted runs n = (n + run.2.2.2).toNat) ∨
      shifted runs n = n ∧ ∀ run ∈ runs, ¬ run.Holds n := by
  rw [shifted]
  split
  · next first last step distance hfind =>
    have hfound := List.find?_some hfind
    simp only [Bool.and_eq_true, decide_eq_true_eq, beq_iff_eq] at hfound
    obtain ⟨⟨hfirst, hlast⟩, hstep⟩ := hfound
    obtain ⟨k, hk⟩ := Nat.dvd_of_mod_eq_zero hstep
    refine .inl ⟨_, List.mem_of_find?_eq_some hfind, ⟨k, ?_, hlast⟩, rfl⟩
    rw [Nat.mul_comm, ← hk]
    exact (Nat.add_sub_cancel' hfirst).symm
  · next hfind =>
    refine .inr ⟨rfl, ?_⟩
    rintro run hrun ⟨k, rfl, hlast⟩
    apply List.find?_eq_none.mp hfind run hrun
    simp [hlast]

/-- The first run is that of the ASCII letters, and all others come later. -/
theorem shifted_ascii {n : Nat} (h : n < 128) :
    shifted upperRuns n = if 97 ≤ n ∧ n ≤ 122 then n - 32 else n := by
  rcases shifted_cases upperRuns n with ⟨run, hrun, ⟨k, hfirst, hlast⟩, hshifted⟩ | ⟨hshifted, hnone⟩
  · rw [hshifted]
    rw [upperRuns_eq, List.mem_cons] at hrun
    rcases hrun with rfl | hrun
    · dsimp only at hfirst hlast ⊢
      rw [if_pos ⟨by omega, hlast⟩]
      omega
    · have := (upperRuns_table run hrun).1
      omega
  · rw [hshifted, if_neg]
    rintro ⟨hfirst, hlast⟩
    rw [upperRuns_eq] at hnone
    exact hnone _ List.mem_cons_self ⟨n - 97, by dsimp only; omega, hlast⟩

/-- What a run makes of a letter past the ASCII letters is no plain capital. -/
theorem isPlain_shifted {c : Char} (h : 128 ≤ c.toNat) :
    isPlain (Char.ofNat (shifted upperRuns c.toNat)) = false := by
  rcases shifted_cases upperRuns c.toNat with ⟨run, hrun, ⟨k, hfirst, hlast⟩, hshifted⟩ |
    ⟨hshifted, -⟩
  · rw [hshifted]
    rw [upperRuns_eq, List.mem_cons] at hrun
    rcases hrun with rfl | hrun
    · dsimp only at hlast
      omega
    · rcases (upperRuns_table run hrun).2 with hfar | ⟨hone, hplain⟩
      · apply isPlain_ofNat
        omega
      · have hc : run.1 = c.toNat := by omega
        rw [← hc]
        exact hplain
  · rw [hshifted, Char.ofNat_toNat]
    exact isPlain_of_le h

/-! ### Upper case -/

theorem mapped_ascii {c : Char} (h : c.toNat < 128) :
    mapped upperSequences upperRuns c = [c.toUpper] := by
  have hlookup : upperSequences.lookup c.toNat = none := by
    rw [List.lookup_eq_none_iff]
    intro entry hentry
    have := (upperSequences_table entry hentry).1
    simp only [bne_iff_ne]
    omega
  have htable : ∀ n < 128,
      Char.ofNat (if 97 ≤ n ∧ n ≤ 122 then n - 32 else n) = (Char.ofNat n).toUpper := by decide
  have hc := htable c.toNat h
  rw [Char.ofNat_toNat] at hc
  rw [mapped, hlookup]
  dsimp only
  rw [shifted_ascii h, hc]

theorem toUpper_of_le {c : Char} (h : 128 ≤ c.toNat) : c.toUpper = c := by
  have hsmall : ¬ ('a'.val ≤ c.val ∧ c.val ≤ 'z'.val) := by
    rintro ⟨-, hz⟩
    have hle : c.toNat ≤ 122 := UInt32.le_iff_toNat_le.mp hz
    omega
  exact dif_neg hsmall

/-- Past the ASCII letters, the upper case of a letter has a character that is no plain capital. -/
theorem exists_not_plain {c : Char} (h : 128 ≤ c.toNat) :
    ∃ d ∈ mapped upperSequences upperRuns c, isPlain d = false := by
  rw [mapped]
  split
  · next ns hlookup =>
    obtain ⟨before, after, htable, -⟩ := List.lookup_eq_some_iff.mp hlookup
    have hentry : (c.toNat, ns) ∈ upperSequences := by
      rw [htable]
      exact List.mem_append_right _ List.mem_cons_self
    obtain ⟨n, hn, hplain⟩ := (upperSequences_table _ hentry).2
    exact ⟨Char.ofNat n, List.mem_map_of_mem hn, hplain⟩
  · exact ⟨_, List.mem_singleton_self _, isPlain_shifted h⟩

/-- A word of plain capitals is the upper case of the same ASCII letters in any case, and of no other
word. -/
theorem upper_eq_iff {s t : String} (ht : ∀ d ∈ t.toList, isPlain d = true) :
    upper s = t ↔ s.toList.map Char.toUpper = t.toList := by
  rw [upper, ← String.toList_inj, String.toList_ofList]
  by_cases hs : ∀ c ∈ s.toList, c.toNat < 128
  · rw [List.flatMap_congr (fun c hc => mapped_ascii (hs c hc)), ← List.map_eq_flatMap]
  · simp only [Classical.not_forall, Nat.not_lt] at hs
    obtain ⟨c, hc, hle⟩ := hs
    obtain ⟨d, hd, hplain⟩ := exists_not_plain hle
    constructor
    · intro heq
      have htrue := ht d (heq ▸ List.mem_flatMap_of_mem hc hd)
      rw [hplain] at htrue
      exact absurd htrue Bool.false_ne_true
    · intro heq
      have htrue := ht c (heq ▸ List.mem_map.mpr ⟨c, hc, toUpper_of_le hle⟩)
      rw [isPlain_of_le hle] at htrue
      exact absurd htrue Bool.false_ne_true

end PropAtlas.LetterCase
