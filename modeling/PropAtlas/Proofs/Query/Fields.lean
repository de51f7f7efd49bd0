import PropAtlas.Proofs.Query.Checks
import PropAtlas.Proofs.Text.LetterCase

/-! The checks of single values, each against its rule. -/

namespace PropAtlas.Query

theorem string?_eq_some_iff {j : Json} {s : String} : string? j = some s ↔ j = .string s := by
  constructor
  · intro h
    cases j with
    | text t => exact congrArg Json.text (Text.eq_ofString_of_toString? h)
    | _ => nomatch h
  · rintro rfl
    exact Text.toString?_ofString s

theorem isEmptyish_iff {j : Json} : j.isEmptyish = true ↔ Falsy j := by
  constructor
  · intro h
    cases j with
    | null => exact .null
    | bool b =>
      cases b
      · exact .false
      · nomatch h
    | int n =>
      obtain rfl : n = 0 := of_decide_eq_true h
      exact .int
    | real x =>
      cases x with
      | finite negative m e =>
        obtain rfl : m = 0 := of_decide_eq_true h
        exact .real negative e
      | infinite => nomatch h
    | text t =>
      obtain rfl := List.isEmpty_iff.mp h
      exact .text
    | list items =>
      obtain rfl := List.isEmpty_iff.mp h
      exact .list
    | object fields =>
      obtain rfl := List.isEmpty_iff.mp h
      exact .object
  · intro h
    cases h <;> rfl

theorem isBlankText_eq_false_iff {t : Text} :
    Blank.isBlankText t = false ↔
      ∃ p ∈ t, ¬ ∃ c, p = CodePoint.ofChar c ∧ Blank.isBlank c = true := by
  have hany (p : CodePoint) :
      p.toChar?.any Blank.isBlank = true ↔ ∃ c, p = CodePoint.ofChar c ∧ Blank.isBlank c = true := by
    constructor
    · intro h
      cases hp : p.toChar? with
      | none =>
        rw [hp] at h
        nomatch h
      | some c =>
        rw [hp] at h
        exact ⟨c, CodePoint.eq_ofChar_of_toChar? hp, h⟩
    · rintro ⟨c, rfl, hc⟩
      rw [CodePoint.toChar?_ofChar]
      exact hc
  rw [Blank.isBlankText, List.all_eq_false]
  simp only [hany]

theorem checks_component (j : Json) :
    Checks 0 1 (checkComponent j) (Breaks (fun _ => .component) (some j)) (GivesComponent (some j)) := by
  refine Checks.rule (fun _ => rfl) (fun _ => Iff.rfl) (fun _ _ _ _ => rfl) ?_ ?_
  · rintro t ⟨hj, ht⟩
    rw [Option.some.inj hj, checkComponent, isBlankText_eq_false_iff.mpr ht]
    rfl
  · intro hnone
    refine ⟨.null, ?_, nofun⟩
    cases j with
    | text t =>
      have hblank : Blank.isBlankText t = true := by
        by_contra ht
        exact hnone t ⟨rfl, isBlankText_eq_false_iff.mp (Bool.eq_false_iff.mpr ht)⟩
      exact if_pos hblank
    | _ => rfl

theorem checks_name (i : Nat) (v : Option Json) :
    Checks (5 * i + 4) (5 * i + 5) (checkName i v) (Breaks (fun _ => .name i) v) (GivesName v) := by
  refine Checks.rule (fun _ => rfl) (fun _ => Iff.rfl) (fun _ _ _ _ => rfl) ?_ ?_
  · rintro t ⟨rfl, ht⟩
    exact if_neg (mt List.isEmpty_iff.mp ht)
  · intro hnone
    refine ⟨.null, ?_, nofun⟩
    rcases v with _ | _ | _ | _ | _ | t | _ | _
    case some.text =>
      have hempty : t.isEmpty = true := by
        by_contra ht
        exact hnone t ⟨rfl, fun h => ht (List.isEmpty_iff.mpr h)⟩
      exact if_pos hempty
    all_goals rfl

/-- The names of the logics are in plain capitals. -/
theorem upper_eq_name_iff {s : String} (l : Logic) :
    LetterCase.upper s = l.name ↔ s.toList.map Char.toUpper = l.name.toList := by
  have hplain : l.name.toList.all LetterCase.isPlain = true := by cases l <;> decide
  exact LetterCase.upper_eq_iff (List.all_eq_true.mp hplain)

theorem checks_logic (j : Json) :
    Checks 1 2 (checkLogic j) (Breaks .logic (some j)) (GivesLogic (some j)) := by
  refine Checks.rule (fun _ => rfl) (fun _ => Iff.rfl)
    (fun _ _ hj hk => congrArg _ (hj.eq_of_given hk rfl rfl)) ?_ ?_
  · rintro l ⟨s, hj, hs⟩
    rw [Option.some.inj hj, checkLogic, string?_eq_some_iff.mpr rfl, Option.map_some,
      (upper_eq_name_iff l).mpr hs]
    cases l <;> rfl
  · intro hnone
    have hname (l : Logic) : (string? j).map LetterCase.upper ≠ some l.name := by
      intro h
      obtain ⟨s, hj, hs⟩ := Option.map_eq_some_iff.mp h
      exact hnone l ⟨s, congrArg some (string?_eq_some_iff.mp hj), (upper_eq_name_iff l).mp hs⟩
    refine ⟨j, ?_, fun _ hk => hk⟩
    rw [checkLogic]
    split
    · next heq => exact absurd heq (hname .and)
    · next heq => exact absurd heq (hname .or)
    · rfl

theorem checks_operator (i : Nat) (v : Option Json) :
    Checks (5 * i + 5) (5 * i + 6) (checkOperator i v) (Breaks (.operator i) v) (GivesOperator v) := by
  refine Checks.rule (fun _ => rfl) (fun _ => Iff.rfl)
    (fun _ _ hj hk => congrArg _ (hj.eq_of_given hk rfl rfl)) ?_ ?_
  · rintro o (rfl | ⟨hfalsy, rfl⟩)
    · cases o <;> rfl
    · cases v with
      | none => rfl
      | some g =>
        rw [checkOperator, if_pos (isEmptyish_iff.mpr (hfalsy g rfl))]
  · intro hnone
    cases v with
    | none => exact absurd (.inr ⟨nofun, rfl⟩) (hnone .equals)
    | some g =>
      have hfalsy : ¬ g.isEmptyish = true := by
        intro h
        apply hnone .equals
        refine .inr ⟨?_, rfl⟩
        intro k hk
        rw [← Option.some.inj hk]
        exact isEmptyish_iff.mp h
      have hname (o : Operator) : string? g ≠ some o.name := by
        intro h
        exact hnone o (.inl (congrArg some (string?_eq_some_iff.mp h)))
      refine ⟨g, ?_, fun _ hk => hk⟩
      rw [checkOperator, if_neg hfalsy]
      split
      · next heq => exact absurd heq (hname .equals)
      · next heq => exact absurd heq (hname .contains)
      · rfl

theorem checks_value (i : Nat) (v : Option Json) :
    Checks (5 * i + 6) (5 * i + 7) (checkValue i v) (Breaks (fun _ => .value i) v)
      (GivesOptional Scalar.toJson v) := by
  refine Checks.rule (fun _ => rfl) (fun _ => Iff.rfl) (fun _ _ _ _ => rfl) ?_ ?_
  · rintro a (rfl | ⟨rfl, rfl⟩)
    · rcases a with _ | _ | _ | _ | _ <;> rfl
    · rfl
  · intro hnone
    refine ⟨.null, ?_, nofun⟩
    rcases v with _ | _ | b | n | x | t | items | fields
    · exact absurd (.inl rfl) (hnone none)
    · exact absurd (.inr ⟨rfl, rfl⟩) (hnone none)
    · exact absurd (.inl rfl) (hnone (some (.bool b)))
    · exact absurd (.inl rfl) (hnone (some (.int n)))
    · exact absurd (.inl rfl) (hnone (some (.real x)))
    · exact absurd (.inl rfl) (hnone (some (.text t)))
    · rfl
    · rfl

theorem checks_present (i : Nat) (v : Option Json) :
    Checks (5 * i + 7) (5 * i + 8) (checkPresent i v) (Breaks (fun _ => .present i) v)
      (GivesOptional Json.bool v) := by
  refine Checks.rule (fun _ => rfl) (fun _ => Iff.rfl) (fun _ _ _ _ => rfl) ?_ ?_
  · rintro a (rfl | ⟨rfl, rfl⟩)
    · rcases a with _ | _ <;> rfl
    · rfl
  · intro hnone
    refine ⟨.null, ?_, nofun⟩
    rcases v with _ | _ | b | n | x | t | items | fields
    · exact absurd (.inl rfl) (hnone none)
    · exact absurd (.inr ⟨rfl, rfl⟩) (hnone none)
    · exact absurd (.inl rfl) (hnone (some b))
    all_goals rfl

end PropAtlas.Query
