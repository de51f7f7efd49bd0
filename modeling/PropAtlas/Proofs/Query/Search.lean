import PropAtlas.Proofs.Query.Validation
import PropAtlas.Query.Match

/-! When a query has no answer. A value that criteria compare with is written out, and that fails for whole
numbers that are too long; but only where the prop is there to be compared. -/

namespace PropAtlas.Query

/-- A prop that is there has to be compared with a whole number that is too long. -/
def Stuck (is : List Instance) (criteria : List Criterion) : Prop :=
  ∃ i ∈ is, ∃ c ∈ criteria, c.present = none ∧
    (∃ n, c.value = some (.int n) ∧ ¬ WholeNumber.Short n) ∧ ∃ u, i.props.get? c.name = some u

theorem Scalar.isWritable_eq_false_iff {v : Scalar} :
    v.isWritable = false ↔ ∃ n, v = .int n ∧ ¬ WholeNumber.Short n := by
  cases v with
  | int n =>
    have hint : (Scalar.int n).isWritable = WholeNumber.isWritable n := rfl
    rw [hint, ← Bool.not_eq_true, WholeNumber.isWritable_iff]
    simp
  | text | real | bool => exact ⟨nofun, fun ⟨n, h, _⟩ => nomatch h⟩

theorem isStuck_iff {c : Criterion} {props : Table Text PropUsage} :
    c.isStuck props = true ↔ c.present = none ∧
      (∃ n, c.value = some (.int n) ∧ ¬ WholeNumber.Short n) ∧ ∃ u, props.get? c.name = some u := by
  have hvalue : c.value.any (fun v => !v.isWritable) = true ↔
      ∃ n, c.value = some (.int n) ∧ ¬ WholeNumber.Short n := by
    cases c.value with
    | none => simp
    | some v => simp [Scalar.isWritable_eq_false_iff]
  rw [Criterion.isStuck, Bool.and_eq_true, Bool.and_eq_true, hvalue, Option.isNone_iff_eq_none,
    Table.has, Option.isSome_iff_exists, and_assoc]

section Search

variable {ds : List Declaration} {ss : List Site} {q : Question} {columns : Bool}

theorem any_isStuck_iff : (instances ds ss q.component).any (fun i =>
    q.criteria.any (fun c => c.isStuck i.props)) = true ↔
      Stuck (instances ds ss q.component) q.criteria := by
  simp only [List.any_eq_true, isStuck_iff, Stuck]

theorem search_of_stuck (h : Stuck (instances ds ss q.component) q.criteria) :
    search ds ss q columns = none := if_pos (any_isStuck_iff.mpr h)

theorem search_of_not_stuck (h : ¬ Stuck (instances ds ss q.component) q.criteria) :
    search ds ss q columns = some (run ds ss q.component q.criteria q.logic columns) :=
  if_neg (mt any_isStuck_iff.mp h)

/-- What is compared stands in the arguments. -/
theorem not_stuck_of_short {component criteria logic : Json}
    (h : validate component criteria logic = .ok q) (hshort : criteria.Short) (is : List Instance) :
    ¬ Stuck is q.criteria := by
  rintro ⟨_, _, c, hc, _, ⟨n, hvalue, hlong⟩, _⟩
  obtain ⟨items, hitems, hdescribes⟩ := (validate_eq_ok_iff.mp h).criteria
  obtain ⟨j, hj, hdescribed⟩ := exists_describes hdescribes hc
  have hfield : j.field? "value" = some (.int n) := by
    rcases hdescribed.value with hgiven | ⟨_, hnone⟩
    · rw [hgiven, hvalue]
      rfl
    · rw [hvalue] at hnone
      nomatch hnone
  -- So the number stands in the criteria, where it would have to be short.
  rcases hitems with ⟨_, rfl⟩ | hlist
  · nomatch hj
  · rw [Option.some.inj hlist] at hshort
    exact hlong (hshort n (.list hj (.of_field hfield .int)))

end Search

end PropAtlas.Query
