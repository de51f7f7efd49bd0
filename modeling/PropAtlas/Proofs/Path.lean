import PropAtlas.Path
import Mathlib.Data.List.Basic

/-! Texts of paths. The names of a path can be read back from its text, and a text that is
continued by a name has one name more. -/

namespace PropAtlas.Path

/-! ### Names between slashes -/

theorem pieces_eq_splitOn (cs : List Char) : pieces cs = cs.splitOn '/' := by
  induction cs with
  | nil => rfl
  | cons c cs ih =>
    rw [pieces, ih, List.splitOn_cons_eq_if_modifyHead]
    by_cases hc : c = '/'
    · simp [hc]
    · simp only [hc, beq_iff_eq, if_false]
      cases hs : cs.splitOn '/' with
      | nil => exact absurd hs (List.splitOn_ne_nil _ _)
      | cons p ps => rfl

theorem slash_not_mem_pieces {cs p : List Char} (hp : p ∈ pieces cs) : '/' ∉ p := by
  induction cs generalizing p with
  | nil =>
    cases List.mem_singleton.mp hp
    exact List.not_mem_nil
  | cons c cs ih =>
    rw [pieces] at hp
    by_cases hc : c = '/'
    · simp only [hc, if_true, List.mem_cons] at hp
      rcases hp with rfl | hp
      · exact List.not_mem_nil
      · exact ih hp
    · simp only [hc, if_false] at hp
      cases hps : pieces cs with
      | nil =>
        rw [hps] at hp
        cases List.mem_singleton.mp hp
        simpa using Ne.symm hc
      | cons q qs =>
        rw [hps] at hp ih
        rcases List.mem_cons.mp hp with rfl | hp
        · exact fun h => (List.mem_cons.mp h).elim (fun h => hc h.symm) (ih List.mem_cons_self)
        · exact ih (List.mem_cons_of_mem _ hp)

theorem slash_not_mem_steps {text name : String} (h : name ∈ steps text) : '/' ∉ name.toList := by
  obtain ⟨p, hp, rfl⟩ := List.mem_map.mp h
  rw [String.toList_ofList]
  exact slash_not_mem_pieces hp

theorem steps_eq_singleton {text : String} (h : '/' ∉ text.toList) : steps text = [text] := by
  rw [steps, pieces_eq_splitOn, List.splitOn_eq_singleton h]
  simp

theorem steps_of_toList {text : String} {xs ys : List Char} (h : text.toList = xs ++ '/' :: ys) :
    steps text = steps (String.ofList xs) ++ steps (String.ofList ys) := by
  simp only [steps, h, String.toList_ofList, pieces_eq_splitOn, List.splitOn_append_cons_self,
    List.map_append]

/-! ### Texts of absolute paths -/

/-- Whether a name can be that of an entry: it says something, does not lead up, and has no slash. -/
def IsPlain (name : String) : Prop := isIdle name = false ∧ name ≠ ".." ∧ '/' ∉ name.toList

instance (name : String) : Decidable (IsPlain name) := instDecidableAnd

theorem toList_text_absolute (names : List String) :
    (absolute names).text.toList = '/' :: ['/'].intercalate (names.map String.toList) := by
  simp [absolute, text, Anchor.text, String.toList_append, String.toList_intercalate]

/-- The names of a text that was made from names without slashes are those that say something. -/
theorem names_ofString_text {names : List String} (h : ∀ n ∈ names, '/' ∉ n.toList) :
    (ofString (absolute names).text).names = names.filter (fun n => !isIdle n) := by
  have htext : (absolute names).text.toList =
      [] ++ '/' :: ['/'].intercalate (names.map String.toList) := toList_text_absolute names
  have hempty : steps (String.ofList []) = [""] := rfl
  have hjoined : (steps (String.ofList (['/'].intercalate (names.map String.toList)))).filter
      (fun n => !isIdle n) = names.filter (fun n => !isIdle n) := by
    by_cases hn : names = []
    · subst hn
      rfl
    · have hmap : names.map String.toList ≠ [] := by simpa using hn
      have hfree : ∀ p ∈ names.map String.toList, '/' ∉ p := by
        intro p hp
        obtain ⟨n, hn, rfl⟩ := List.mem_map.mp hp
        exact h n hn
      rw [steps, String.toList_ofList, pieces_eq_splitOn, List.splitOn_intercalate _ hfree hmap,
        List.map_map]
      simp [Function.comp_def]
  change (steps (absolute names).text).filter (fun n => !isIdle n) = _
  rw [steps_of_toList htext, hempty, List.singleton_append, List.filter_cons_of_neg (by decide)]
  exact hjoined

theorem isRooted_text_absolute (names : List String) : isRooted (absolute names).text = true := by
  rw [isRooted, toList_text_absolute]
  rfl

theorem anchorOf_eq_here_iff (text : String) : anchorOf text = .here ↔ isRooted text = false := by
  rw [anchorOf, isRooted]
  cases text.toList with
  | nil => simp
  | cons c cs =>
    by_cases hc : c = '/'
    · rw [List.takeWhile_cons_of_pos (by simpa using hc), List.length_cons]
      simp only [hc, List.head?_cons, beq_self_eq_true, Bool.true_eq_false, iff_false]
      split <;> simp_all
    · rw [List.takeWhile_cons_of_neg (by simpa using hc)]
      simp [hc]

theorem anchor_ofString_ne_here {text : String} (h : isRooted text = true) :
    (ofString text).anchor ≠ .here := by
  intro hanchor
  have hrelative := (anchorOf_eq_here_iff text).mp hanchor
  rw [h] at hrelative
  cases hrelative

/-- A path of plain names is read back from its text. -/
theorem ofString_text_absolute {names : List String} (h : ∀ n ∈ names, IsPlain n) :
    ofString (absolute names).text = absolute names := by
  have hnames : (ofString (absolute names).text).names = names := by
    rw [names_ofString_text (fun n hn => (h n hn).2.2)]
    apply List.filter_eq_self.mpr
    intro n hn
    simpa using (h n hn).1
  have hanchor : anchorOf (absolute names).text = .root := by
    rw [anchorOf, toList_text_absolute]
    cases names with
    | nil => rfl
    | cons n names =>
      -- The first name does not start with a slash, so there is one slash at the start.
      have hplain := h n List.mem_cons_self
      have hstart :
          (['/'].intercalate ((n :: names).map String.toList)).takeWhile (· == '/') = [] := by
        cases hl : n.toList with
        | nil =>
          have hn : n = "" := by simpa using hl
          exact absurd hplain.1 (by simp [hn, isIdle])
        | cons c cs =>
          have hc : c ≠ '/' := fun hc => hplain.2.2 (by simp [hl, hc])
          cases names <;> simp [hl, hc, List.intercalate]
      rw [List.takeWhile_cons_of_pos (by decide), hstart]
      rfl
  exact Path.mk.injEq _ _ _ _ ▸ ⟨hanchor, hnames⟩

/-! ### Continued texts -/

theorem endsWith_slash (text : String) :
    text.endsWith "/" = (text.toList.getLast? == some '/') := by
  have hend : text.endsWith "/" = true ↔ ['/'] <:+ text.toList := by
    rw [← String.endsWith_toSlice, String.Slice.endsWith_string_iff, String.copy_toSlice]
    rfl
  rw [Bool.eq_iff_iff, hend, beq_iff_eq, List.getLast?_eq_some_iff]
  exact exists_congr fun _ => eq_comm

theorem isRooted_extend {text name : String} (h : isRooted text = true) :
    isRooted (extend text name) = true := by
  have hhead : text.toList.head? = some '/' := by simpa [isRooted] using h
  obtain ⟨cs, hcs⟩ := List.head?_eq_some_iff.mp hhead
  unfold extend
  split_ifs <;> simp [isRooted, String.toList_append, hcs]

/-- A name without slashes does not change where a text is read from. -/
theorem isRooted_extend_eq (text : String) {name : String} (h : IsPlain name) :
    isRooted (extend text name) = isRooted text := by
  cases hr : isRooted text with
  | true => exact isRooted_extend hr
  | false =>
    have hname : isRooted name = false := by
      have hhead : name.toList.head? ≠ some '/' := fun hs => h.2.2 (List.mem_of_head? hs)
      simpa [isRooted] using hhead
    unfold extend
    by_cases hempty : text = ""
    · simp [hempty, hname]
    · obtain ⟨c, cs, hcs⟩ := List.exists_cons_of_ne_nil (by simpa using hempty : text.toList ≠ [])
      have hc : c ≠ '/' := by simpa [isRooted, hcs] using hr
      split_ifs <;> simp [isRooted, String.toList_append, hcs, hc]

/-- A text that is continued by a name has that name after the names it had. -/
theorem names_ofString_extend (text : String) {name : String} (h : IsPlain name) :
    (ofString (extend text name)).names = (ofString text).names ++ [name] := by
  have hname : steps name = [name] := steps_eq_singleton h.2.2
  have hkeep : [name].filter (fun n => !isIdle n) = [name] := by simp [h.1]
  change (steps (extend text name)).filter (fun n => !isIdle n) =
    (steps text).filter (fun n => !isIdle n) ++ [name]
  unfold extend
  split_ifs with hend
  · rw [Bool.or_eq_true] at hend
    rcases hend with hempty | hslash
    · rw [String.isEmpty_iff.mp hempty, String.empty_append, hname, hkeep]
      rfl
    · rw [endsWith_slash, beq_iff_eq, List.getLast?_eq_some_iff] at hslash
      obtain ⟨xs, htext⟩ := hslash
      have hlong : (text ++ name).toList = xs ++ '/' :: name.toList := by
        simp [String.toList_append, htext]
      have hnil : steps (String.ofList []) = [""] := rfl
      rw [steps_of_toList htext, steps_of_toList hlong, String.ofList_toList, hname, hnil,
        List.filter_append, List.filter_append, hkeep]
      simp [isIdle]
  · have hlong : (text ++ "/" ++ name).toList = text.toList ++ '/' :: name.toList := by
      simp [String.toList_append]
    rw [steps_of_toList hlong, String.ofList_toList, String.ofList_toList, hname, List.filter_append,
      hkeep]

end PropAtlas.Path
