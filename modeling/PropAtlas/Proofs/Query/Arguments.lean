import PropAtlas.Proofs.Json.Digits
import PropAtlas.Proofs.Query.Elements

/-! The arguments of a query as one value. A rule that the value breaks somewhere is a rule that an argument
or an element breaks, so the check of the arguments finds the first one. -/

namespace PropAtlas.Query

variable (component criteria logic : Json)

theorem child?_criteria :
    (query component criteria logic).child? (.field "prop_criteria") = some criteria :=
  Json.field?_record _ _

theorem child?_index_eq_some_iff {k j : Json} {i : Nat} :
    k.child? (.index i) = some j ↔ ∃ items, k = .list items ∧ items[i]? = some j := by
  constructor
  · intro h
    cases k with
    | list items => exact ⟨items, rfl, h⟩
    | _ => nomatch h
  · rintro ⟨items, rfl, h⟩
    exact h

theorem at?_field (j : Json) (name : String) : j.at? [.field name] = j.field? name := by
  rw [Json.at?, Json.child?]
  exact Option.bind_fun_some _

/-- A fault about an argument is one of its value. -/
theorem broken_argument_iff {f : Fault} {name : String} {v : Json} (hplace : f.place = [.field name])
    (hv : (query component criteria logic).field? name = some v) :
    Broken (query component criteria logic) f ↔ BrokenBy (some v) f := by
  have hat : (query component criteria logic).at? f.place = some v := by
    rw [hplace, at?_field, hv]
  constructor
  · rintro ⟨-, hbroken⟩
    rwa [hat] at hbroken
  · intro hbroken
    refine ⟨?_, by rwa [hat]⟩
    rw [hplace]
    exact ⟨_, rfl⟩

/-- A fault about an element is one of a list that has the element. -/
theorem broken_element_iff {f : Fault} {i : Nat} {way : List Step}
    (hplace : f.place = .field "prop_criteria" :: .index i :: way) :
    Broken (query component criteria logic) f ↔
      ∃ items, criteria = .list items ∧ ∃ j, items[i]? = some j ∧ j.HasWay way ∧
        BrokenBy (j.at? way) f := by
  have hat {j : Json} (hj : criteria.child? (.index i) = some j) :
      (query component criteria logic).at? f.place = j.at? way := by
    rw [hplace, Json.at?, child?_criteria, Option.bind_some, Json.at?, hj, Option.bind_some]
  constructor
  · rintro ⟨hway, hbroken⟩
    rw [hplace] at hway
    obtain ⟨_, hk, j, hj, hway⟩ := hway
    obtain rfl := Option.some.inj ((child?_criteria component criteria logic).symm.trans hk)
    rw [hat hj] at hbroken
    obtain ⟨items, hitems, hj⟩ := child?_index_eq_some_iff.mp hj
    exact ⟨items, hitems, j, hj, hway, hbroken⟩
  · rintro ⟨items, hitems, j, hj, hway, hbroken⟩
    have hchild := child?_index_eq_some_iff.mpr ⟨items, hitems, hj⟩
    refine ⟨?_, by rwa [hat hchild]⟩
    rw [hplace]
    exact ⟨_, child?_criteria _ _ _, j, hchild, hway⟩

instance : Nonempty Json := ⟨.null⟩

/-- What an element breaks, it breaks at a place of its own. -/
theorem breaksAt_iff {f : Fault} {i : Nat} {j : Json} :
    BreaksAt i j f ↔ ∃ way, f.place = .field "prop_criteria" :: .index i :: way ∧ j.HasWay way ∧
      BrokenBy (j.at? way) f := by
  cases f with
  | component | logic | notList => simp [BreaksAt, Breaks, Fault.place]
  | notObject => simp [BreaksAt, Breaks, Fault.place, Json.HasWay, Json.at?]
  | name | operator | value | present =>
    simp [BreaksAt, Breaks, Fault.place, Json.HasWay, at?_field, and_left_comm]

theorem place_cases (f : Fault) :
    f = .component ∨ (∃ j, f = .logic j) ∨ f = .notList ∨
      ∃ i way, f.place = .field "prop_criteria" :: .index i :: way := by
  cases f with
  | component => exact .inl rfl
  | logic j => exact .inr (.inl ⟨j, rfl⟩)
  | notList => exact .inr (.inr (.inl rfl))
  | notObject i | name i | operator i | value i | present i => exact .inr (.inr (.inr ⟨i, _, rfl⟩))

/-- The rules of a query are those of its arguments. -/
theorem broken_query_iff (f : Fault) :
    Broken (query component criteria logic) f ↔
      Breaks (fun _ => .component) (some component) f ∨ Breaks .logic (some logic) f ∨
        BreaksList criteria f := by
  have hcomponent := broken_argument_iff component criteria logic (f := .component) rfl
    (Json.field?_record _ _)
  have hlogic (j : Json) := broken_argument_iff component criteria logic (f := .logic j) rfl
    (Json.field?_record _ _)
  have hlist := broken_argument_iff component criteria logic (f := .notList) rfl
    (Json.field?_record _ _)
  constructor
  · intro h
    rcases place_cases f with rfl | ⟨j, rfl⟩ | rfl | ⟨i, way, hplace⟩
    · exact .inl ⟨.null, rfl, hcomponent.mp h⟩
    · exact .inr (.inl ⟨j, rfl, (hlogic j).mp h⟩)
    · exact .inr (.inr (.inl ⟨.null, rfl, hlist.mp h⟩))
    · obtain ⟨items, rfl, j, hj, hbroken⟩ := (broken_element_iff _ _ _ hplace).mp h
      have hat : BreaksAt i j f := breaksAt_iff.mpr ⟨way, hplace, hbroken⟩
      exact .inr (.inr (.inr ⟨items, .inr rfl, i, j, hj, hat⟩))
  · rintro (⟨_, rfl, h⟩ | ⟨_, rfl, h⟩ | ⟨_, rfl, h⟩ | ⟨items, hitems, i, j, hj, hat⟩)
    · exact hcomponent.mpr h
    · exact (hlogic _).mpr h
    · exact hlist.mpr h
    · obtain ⟨way, hplace, hbroken⟩ := breaksAt_iff.mp hat
      rcases hitems with ⟨-, rfl⟩ | hlist
      · nomatch hj
      · exact (broken_element_iff _ _ _ hplace).mpr ⟨items, Option.some.inj hlist, j, hj, hbroken⟩

instance : Nonempty Logic := ⟨.and⟩

theorem checks_query :
    ∃ hi, Checks 0 hi (check component criteria logic) (Broken (query component criteria logic))
      (Asks component criteria logic) := by
  obtain ⟨hi, hlist⟩ := checks_list criteria
  have hcheck := (checks_component component).bind fun c =>
    (checks_logic logic).bind fun l =>
      hlist.bind fun cs => Checks.pure _ (⟨c, cs, l⟩ : Question)
  refine ⟨hi, hcheck.congr ?_ ?_⟩
  · intro f
    simp only [or_false]
    exact (broken_query_iff component criteria logic f).symm
  · intro q
    constructor
    · rintro ⟨c, hc, l, hl, cs, hcs, rfl⟩
      exact ⟨hc, hl, hcs⟩
    · intro h
      exact ⟨_, h.component, _, h.logic, _, h.criteria, rfl⟩

end PropAtlas.Query
