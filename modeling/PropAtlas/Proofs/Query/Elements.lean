import PropAtlas.Proofs.Query.Fields

/-! The checks of an element and of the list of criteria: the elements come one after another, and each with
its own rules. -/

namespace PropAtlas.Query

/-- The element at an index breaks a rule. -/
def BreaksAt (i : Nat) (j : Json) (f : Fault) : Prop :=
  Breaks (.notObject i) (some j) f ∨
    (∃ fields, j = .object fields) ∧
      (Breaks (fun _ => .name i) (j.field? "name") f ∨
        Breaks (.operator i) (j.field? "operator") f ∨
        Breaks (fun _ => .value i) (j.field? "value") f ∨
        Breaks (fun _ => .present i) (j.field? "exists") f)

instance : Nonempty Operator := ⟨.equals⟩

theorem checks_object (i : Nat) (fields : List (Text × Json)) :
    Checks (5 * i + 4) (5 * i + 8) (checkCriterion i (.object fields)) (BreaksAt i (.object fields))
      (Describes (.object fields)) := by
  let field := (Json.object fields).field?
  have hfields := (checks_name i (field "name")).bind fun name =>
    (checks_operator i (field "operator")).bind fun operator =>
      (checks_value i (field "value")).bind fun value =>
        (checks_present i (field "exists")).bind fun present =>
          Checks.pure _ ({ name, operator, value, present } : Criterion)
  apply hfields.congr
  · intro f
    constructor
    · intro h
      simp only [or_false] at h
      exact .inr ⟨⟨fields, rfl⟩, h⟩
    · rintro (⟨j, rfl, hbroken⟩ | ⟨-, h⟩)
      · exact absurd ⟨fields, rfl⟩ hbroken.illegal
      · simp only [or_false]
        exact h
  · intro c
    constructor
    · rintro ⟨name, hname, operator, hoperator, value, hvalue, present, hpresent, rfl⟩
      exact ⟨⟨fields, rfl⟩, hname, hoperator, hvalue, hpresent⟩
    · intro h
      exact ⟨_, h.name, _, h.operator, _, h.value, _, h.present, rfl⟩

theorem checkCriterion_of_not_object {j : Json} (i : Nat) (h : ¬ ∃ fields, j = .object fields) :
    checkCriterion i j = .error (.notObject i j) := by
  cases j with
  | object fields => exact absurd ⟨fields, rfl⟩ h
  | _ => rfl

theorem checks_criterion (i : Nat) (j : Json) :
    Checks (5 * i + 3) (5 * i + 8) (checkCriterion i j) (BreaksAt i j) (Describes j) := by
  by_cases hobject : ∃ fields, j = .object fields
  · obtain ⟨fields, rfl⟩ := hobject
    exact (checks_object i fields).widen (by omega) (Nat.le_refl _)
  · have hnone (c : Criterion) : ¬ Describes j c := fun h => hobject h.object
    have hlegal (k : Json) : ¬ Legal (.notObject i k) (some j) := by
      rintro ⟨fields, h⟩
      exact hobject ⟨fields, Option.some.inj h⟩
    have hrule : Checks (5 * i + 3) (5 * i + 4) (checkCriterion i j) (Breaks (.notObject i) (some j))
        (Describes j) :=
      Checks.refused (fun _ => rfl) (fun _ _ hj hk => congrArg _ (hj.eq_of_given hk rfl rfl)) hlegal
        hnone ⟨j, checkCriterion_of_not_object i hobject, fun _ hk => hk⟩
    apply (hrule.widen (Nat.le_refl _) (by omega)).congr
    · intro f
      exact ⟨.inl, fun h => h.resolve_right (fun h => hobject h.1)⟩
    · intro c
      exact Iff.rfl

instance : Nonempty Criterion := ⟨{ name := [] }⟩

/-- The elements are checked one after another, each before the next. -/
theorem checks_criteria (i : Nat) (items : List Json) :
    Checks (5 * i + 3) (5 * (i + items.length) + 3) (checkCriteria i items)
      (fun f => ∃ k j, items[k]? = some j ∧ BreaksAt (i + k) j f) (List.Forall₂ Describes items) := by
  induction items generalizing i with
  | nil =>
    apply (Checks.pure (5 * i + 3) []).congr
    · intro f
      simp
    · intro cs
      exact List.forall₂_nil_left_iff.symm
  | cons j js ih =>
    -- The positions of an element end where those of the next one begin.
    have hrest := (ih (i + 1)).widen (Nat.le_refl _)
      (show 5 * (i + 1 + js.length) + 3 ≤ 5 * (i + (j :: js).length) + 3 by
        rw [List.length_cons]
        omega)
    have hboth := (checks_criterion i j).bind fun c =>
      hrest.bind fun cs => Checks.pure _ (c :: cs)
    apply hboth.congr
    · intro f
      simp only [or_false]
      constructor
      · rintro (h | ⟨k, j', hj', h⟩)
        · exact ⟨0, j, rfl, h⟩
        · exact ⟨k + 1, j', hj', by rwa [show i + (k + 1) = i + 1 + k by omega]⟩
      · rintro ⟨k, j', hj', h⟩
        cases k with
        | zero =>
          obtain rfl := Option.some.inj hj'
          exact .inl h
        | succ k =>
          exact .inr ⟨k, j', hj', by rwa [show i + 1 + k = i + (k + 1) by omega]⟩
    · intro cs
      rw [List.forall₂_cons_left_iff]
      constructor
      · rintro ⟨c, hc, cs', hcs', rfl⟩
        exact ⟨c, cs', hc, hcs', rfl⟩
      · rintro ⟨c, cs', hc, hcs', rfl⟩
        exact ⟨c, hc, cs', hcs', rfl⟩

/-- The argument with the criteria breaks a rule, or one of its elements does. -/
def BreaksList (criteria : Json) (f : Fault) : Prop :=
  Breaks (fun _ => .notList) (some criteria) f ∨
    ∃ items, GivesList (some criteria) items ∧ ∃ i j, items[i]? = some j ∧ BreaksAt i j f

theorem GivesList.unique {v : Option Json} {items items' : List Json} (h : GivesList v items)
    (h' : GivesList v items') : items = items' := by
  rcases h with ⟨rfl, rfl⟩ | rfl
  · rcases h' with ⟨-, rfl⟩ | h'
    · rfl
    · nomatch h'
  · rcases h' with ⟨h', -⟩ | h'
    · nomatch h'
    · exact Json.list.inj (Option.some.inj h')

theorem checkList_of_gives {criteria : Json} {items : List Json}
    (h : GivesList (some criteria) items) : checkList criteria = checkCriteria 0 items := by
  rcases h with ⟨h, rfl⟩ | h
  · rw [Option.some.inj h]
    rfl
  · rw [Option.some.inj h]
    rfl

theorem checkList_of_not_gives {criteria : Json} (h : ¬ ∃ items, GivesList (some criteria) items) :
    checkList criteria = .error .notList := by
  cases criteria with
  | null => exact absurd ⟨[], .inl ⟨rfl, rfl⟩⟩ h
  | list items => exact absurd ⟨items, .inr rfl⟩ h
  | _ => rfl

theorem checks_list (criteria : Json) :
    ∃ hi, Checks 2 hi (checkList criteria) (BreaksList criteria)
      (fun cs => ∃ items, GivesList (some criteria) items ∧ List.Forall₂ Describes items cs) := by
  by_cases hlist : ∃ items, GivesList (some criteria) items
  · obtain ⟨items, hitems⟩ := hlist
    rw [checkList_of_gives hitems]
    refine ⟨_, ((checks_criteria 0 items).widen (by omega) (Nat.le_refl _)).congr ?_ ?_⟩
    · intro f
      simp only [Nat.zero_add]
      constructor
      · intro h
        exact .inr ⟨items, hitems, h⟩
      · rintro (⟨_, rfl, hbroken⟩ | ⟨items', hitems', h⟩)
        · exact absurd ⟨items, hitems⟩ hbroken.illegal
        · rwa [hitems.unique hitems']
    · intro cs
      constructor
      · intro h
        exact ⟨items, hitems, h⟩
      · rintro ⟨items', hitems', h⟩
        rwa [hitems.unique hitems']
  · rw [checkList_of_not_gives hlist]
    have hrule : Checks 2 3 (.error .notList) (Breaks (fun _ => .notList) (some criteria))
        (fun cs => ∃ items, GivesList (some criteria) items ∧ List.Forall₂ Describes items cs) := by
      refine Checks.refused (fun _ => rfl) (fun _ _ _ _ => rfl) (fun _ => hlist) ?_
        ⟨.null, rfl, nofun⟩
      rintro cs ⟨items, hitems, -⟩
      exact hlist ⟨items, hitems⟩
    refine ⟨3, hrule.congr ?_ (fun _ => Iff.rfl)⟩
    intro f
    refine ⟨.inl, fun h => h.resolve_right ?_⟩
    rintro ⟨items, hitems, -⟩
    exact hlist ⟨items, hitems⟩

end PropAtlas.Query
