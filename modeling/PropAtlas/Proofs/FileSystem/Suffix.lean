import PropAtlas.Proofs.Path
import PropAtlas.Proofs.Text.LowerCase

/-! Suffixes of file names. -/

namespace PropAtlas.Path

variable {name ext : String} {stem tail : List Char}

/-- Whether a file name has a suffix: what stands from its last dot on, in lower case. Without a dot, or
with nothing before or after the last one, the suffix is empty. -/
def HasSuffix (name ext : String) : Prop :=
  (∃ stem tail, name.toList = stem ++ '.' :: tail ∧ '.' ∉ tail ∧ stem ≠ [] ∧ tail ≠ [] ∧
      LetterCase.IsLower ('.' :: tail) ext.toList) ∨
    ext = "" ∧
      ∀ stem tail, name.toList = stem ++ '.' :: tail → '.' ∉ tail → stem = [] ∨ tail = []

theorem exists_last_dot {cs : List Char} (h : '.' ∈ cs) :
    ∃ stem tail, cs = stem ++ '.' :: tail ∧ '.' ∉ tail := by
  obtain ⟨as, bs, hsplit, has⟩ := List.eq_append_cons_of_mem (List.mem_reverse.mpr h)
  refine ⟨bs.reverse, as.reverse, ?_, fun hdot => has (List.mem_reverse.mp hdot)⟩
  rw [← List.reverse_reverse cs, hsplit]
  simp

theorem takeWhile_of_split (hname : name.toList = stem ++ '.' :: tail) (htail : '.' ∉ tail) :
    (name.toList.reverse.takeWhile (· != '.')).reverse = tail := by
  have hpos : ∀ c ∈ tail.reverse, (c != '.') = true := by
    intro c hc
    rw [bne_iff_ne]
    rintro rfl
    exact htail (List.mem_reverse.mp hc)
  rw [hname, List.reverse_append, List.reverse_cons, List.append_assoc,
    List.takeWhile_append_of_pos hpos]
  simp

theorem suffixOf_of_split (hname : name.toList = stem ++ '.' :: tail) (htail : '.' ∉ tail)
    (hstem : stem ≠ []) (hend : tail ≠ []) : suffixOf name = String.ofList ('.' :: tail) := by
  have hstem := List.length_pos_of_ne_nil hstem
  have hend := List.length_pos_of_ne_nil hend
  unfold suffixOf
  dsimp only
  rw [takeWhile_of_split hname htail, hname, if_pos]
  rw [Bool.and_eq_true, decide_eq_true_eq, decide_eq_true_eq, List.length_append, List.length_cons]
  omega

theorem suffixOf_eq_empty
    (hnone : ∀ stem tail, name.toList = stem ++ '.' :: tail → '.' ∉ tail → stem = [] ∨ tail = []) :
    suffixOf name = "" := by
  unfold suffixOf
  dsimp only
  rw [if_neg]
  rw [Bool.and_eq_true, decide_eq_true_eq, decide_eq_true_eq]
  rintro ⟨hlen, hend⟩
  by_cases hdot : '.' ∈ name.toList
  · obtain ⟨stem, tail, hname, htail⟩ := exists_last_dot hdot
    rw [takeWhile_of_split hname htail] at hlen hend
    rcases hnone stem tail hname htail with rfl | rfl
    · rw [hname, List.nil_append, List.length_cons] at hlen
      omega
    · exact hend rfl
  · have hall : ∀ c ∈ name.toList.reverse, (c != '.') = true := by
      intro c hc
      rw [bne_iff_ne]
      rintro rfl
      exact hdot (List.mem_reverse.mp hc)
    have htake : name.toList.reverse.takeWhile (· != '.') = name.toList.reverse := by
      rw [← List.append_nil name.toList.reverse, List.takeWhile_append_of_pos hall, List.takeWhile_nil]
    rw [htake, List.reverse_reverse] at hlen
    omega

theorem fileName_of_plain (h : IsPlain name) : fileName name = name := by
  rw [fileName, ofString, steps_eq_singleton h.2.2]
  simp [h.1]

/-- The suffix that is computed is the suffix that a file name has. -/
theorem suffix_eq_iff (h : IsPlain name) : suffix name = ext ↔ HasSuffix name ext := by
  rw [suffix, fileName_of_plain h]
  by_cases hsplit : ∃ stem tail, name.toList = stem ++ '.' :: tail ∧ '.' ∉ tail ∧ stem ≠ [] ∧ tail ≠ []
  · obtain ⟨stem, tail, hname, htail, hstem, hend⟩ := hsplit
    have hsuffix := suffixOf_of_split hname htail hstem hend
    rw [hsuffix, LetterCase.lower_eq_iff, String.toList_ofList]
    constructor
    · exact fun hlower => .inl ⟨stem, tail, hname, htail, hstem, hend, hlower⟩
    · rintro (⟨stem', tail', hname', htail', hstem', hend', hlower⟩ | ⟨_, hnone⟩)
      · -- There is one last dot only: both splits give what is computed.
        have hsame := (suffixOf_of_split hname' htail' hstem' hend').symm.trans hsuffix
        rwa [String.ofList_injective hsame] at hlower
      · exact absurd (hnone stem tail hname htail) (not_or.mpr ⟨hstem, hend⟩)
  · have hnone : ∀ stem tail, name.toList = stem ++ '.' :: tail → '.' ∉ tail →
        stem = [] ∨ tail = [] := by
      intro stem tail hname htail
      by_contra hboth
      exact hsplit ⟨stem, tail, hname, htail, not_or.mp hboth⟩
    rw [suffixOf_eq_empty hnone]
    constructor
    · rintro rfl
      exact .inr ⟨rfl, hnone⟩
    · rintro (⟨stem, tail, hname, htail, hstem, hend, _⟩ | ⟨rfl, _⟩)
      · exact absurd ⟨stem, tail, hname, htail, hstem, hend⟩ hsplit
      · rfl

end PropAtlas.Path
