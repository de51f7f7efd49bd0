import PropAtlas.Text.Blank

/-! The ends of a text. What is left of a text without the characters of a class at its ends is the one
part of it that has none of them at its own ends and only such characters before and after it. -/

namespace PropAtlas.Blank

/-- `t` is what is left of a text without the characters of a class at its ends. -/
def Trimmed (p : Char → Bool) (text t : String) : Prop :=
  ∃ left right : List Char, text.toList = left ++ t.toList ++ right ∧
    (∀ c ∈ left, p c = true) ∧ (∀ c ∈ right, p c = true) ∧
    (∀ c ∈ t.toList.head?, p c = false) ∧ ∀ c ∈ t.toList.getLast?, p c = false

theorem dropWhile_eq_iff {p : Char → Bool} {cs t : List Char} :
    cs.dropWhile p = t ↔
      ∃ left, cs = left ++ t ∧ (∀ c ∈ left, p c = true) ∧ ∀ c ∈ t.head?, p c = false := by
  constructor
  · rintro rfl
    refine ⟨cs.takeWhile p, List.takeWhile_append_dropWhile.symm, ?_, ?_⟩
    · intro c hc
      exact List.all_eq_true.mp List.all_takeWhile c hc
    · intro c hc
      have hnot := List.head?_dropWhile_not p cs
      rw [Option.mem_def.mp hc] at hnot
      exact hnot
  · rintro ⟨left, rfl, hleft, hhead⟩
    rw [List.dropWhile_append_of_pos hleft]
    cases t with
    | nil => rfl
    | cons c t => exact List.dropWhile_cons_of_neg (by simp [hhead c rfl])

theorem trim_eq_iff {p : Char → Bool} {cs t : List Char} :
    trim p cs = t ↔
      ∃ left right, cs = left ++ t ++ right ∧ (∀ c ∈ left, p c = true) ∧
        (∀ c ∈ right, p c = true) ∧ (∀ c ∈ t.head?, p c = false) ∧ ∀ c ∈ t.getLast?, p c = false := by
  rw [trim, List.reverse_eq_iff, dropWhile_eq_iff]
  constructor
  · -- The right end is what is dropped from the reversed rest.
    rintro ⟨right, hcs, hright, hlast⟩
    have hdrop : cs.dropWhile p = t ++ right.reverse := by
      rw [← List.reverse_inj, hcs, List.reverse_append, List.reverse_reverse]
    obtain ⟨left, rfl, hleft, hhead⟩ := dropWhile_eq_iff.mp hdrop
    refine ⟨left, right.reverse, (List.append_assoc _ _ _).symm, hleft, ?_, ?_, ?_⟩
    · intro c hc
      exact hright c (List.mem_reverse.mp hc)
    · intro c hc
      apply hhead
      rw [List.head?_append, Option.mem_def.mp hc]
      rfl
    · rwa [List.head?_reverse] at hlast
  · rintro ⟨left, right, rfl, hleft, hright, hhead, hlast⟩
    cases t with
    | nil =>
      -- Nothing is left: all of the text is dropped from the front.
      have hall : (left ++ [] ++ right).dropWhile p = [] := by
        rw [List.append_nil, List.dropWhile_append_of_pos hleft]
        exact dropWhile_eq_iff.mpr ⟨right, (List.append_nil _).symm, hright, by simp⟩
      exact ⟨[], by rw [hall]; rfl, by simp, by simp⟩
    | cons a t =>
      have hfront : (left ++ a :: t ++ right).dropWhile p = a :: t ++ right :=
        dropWhile_eq_iff.mpr ⟨left, List.append_assoc _ _ _, hleft, hhead⟩
      refine ⟨right.reverse, ?_, ?_, ?_⟩
      · rw [hfront, List.reverse_append]
      · intro c hc
        exact hright c (List.mem_reverse.mp hc)
      · rwa [List.head?_reverse]

theorem stripOf_eq_iff {p : Char → Bool} {text t : String} :
    stripOf p text = t ↔ Trimmed p text t := by
  rw [stripOf, ← String.toList_inj, String.toList_ofList, trim_eq_iff, Trimmed]

/-- A text is left as it is if neither end of it belongs to the class. -/
theorem stripOf_eq_self_iff {p : Char → Bool} {text : String} :
    stripOf p text = text ↔
      (∀ c ∈ text.toList.head?, p c = false) ∧ ∀ c ∈ text.toList.getLast?, p c = false := by
  rw [stripOf_eq_iff]
  constructor
  · rintro ⟨_, _, _, _, _, hhead, hlast⟩
    exact ⟨hhead, hlast⟩
  · rintro ⟨hhead, hlast⟩
    exact ⟨[], [], by simp, by simp, by simp, hhead, hlast⟩

end PropAtlas.Blank
