import Mathlib.Data.Nat.Digits.Lemmas
import PropAtlas.Json.Basic

/-! Whole numbers that are too long. A value can be written if and only if no whole number in it, at any
depth, has more than 4300 digits. -/

namespace PropAtlas

/-- A whole number of at most 4300 digits. -/
def WholeNumber.Short (n : Int) : Prop := (Nat.digits 10 n.natAbs).length ≤ 4300

theorem WholeNumber.isWritable_iff {n : Int} : isWritable n = true ↔ Short n := by
  have hdigits (k : Nat) : n.natAbs < Nat.pow 10 k ↔ (Nat.digits 10 n.natAbs).length ≤ k :=
    (Nat.digits_length_le_iff (by decide) _).symm
  rw [isWritable, decide_eq_true_iff]
  exact hdigits longest

namespace Json

/-- A whole number stands in a value. -/
inductive Holds (n : Int) : Json → Prop where
  | int : Holds n (.int n)
  | list {j : Json} {items : List Json} (mem : j ∈ items) (holds : Holds n j) : Holds n (.list items)
  | object {name : Text} {j : Json} {fields : List (Text × Json)} (mem : (name, j) ∈ fields)
      (holds : Holds n j) : Holds n (.object fields)

def Short (j : Json) : Prop := ∀ n, j.Holds n → WholeNumber.Short n

theorem Holds.of_field {j k : Json} {name : String} {n : Int} (hfield : j.field? name = some k)
    (h : k.Holds n) : j.Holds n := by
  cases j with
  | object fields =>
    obtain ⟨before, after, hsplit, -⟩ := List.lookup_eq_some_iff.mp hfield
    have hmem : (Text.ofString name, k) ∈ fields := by
      rw [hsplit]
      exact List.mem_append_right _ List.mem_cons_self
    exact .object hmem h
  | null | bool | int | real | text | list => nomatch hfield

theorem areWritable_iff {items : List Json} :
    areWritable items = true ↔ ∀ j ∈ items, j.isWritable = true := by
  induction items with
  | nil => simp [areWritable]
  | cons j js ih => rw [areWritable, Bool.and_eq_true, ih, List.forall_mem_cons]

theorem fieldsWritable_iff {fields : List (Text × Json)} :
    fieldsWritable fields = true ↔ ∀ name j, (name, j) ∈ fields → j.isWritable = true := by
  induction fields with
  | nil => simp [fieldsWritable]
  | cons field rest ih =>
    obtain ⟨name, j⟩ := field
    rw [fieldsWritable, Bool.and_eq_true, ih]
    constructor
    · rintro ⟨hj, hrest⟩ name' j' h
      rcases List.mem_cons.mp h with h | h
      · rwa [(Prod.mk.inj h).2]
      · exact hrest name' j' h
    · intro h
      exact ⟨h name j List.mem_cons_self, fun name' j' h' => h name' j' (List.mem_cons_of_mem _ h')⟩

theorem Holds.short {n : Int} {j : Json} (h : j.Holds n) (hj : j.isWritable = true) :
    WholeNumber.Short n := by
  induction h with
  | int => exact WholeNumber.isWritable_iff.mp hj
  | list mem _ ih => exact ih (areWritable_iff.mp hj _ mem)
  | object mem _ ih => exact ih (fieldsWritable_iff.mp hj _ _ mem)

theorem isWritable_of_short (j : Json) (h : j.Short) : j.isWritable = true := by
  match j with
  | .null | .bool _ | .real _ | .text _ => rfl
  | .int n => exact WholeNumber.isWritable_iff.mpr (h n .int)
  | .list items =>
    apply areWritable_iff.mpr
    intro k hk
    have := List.sizeOf_lt_of_mem hk
    exact isWritable_of_short k (fun n hn => h n (.list hk hn))
  | .object fields =>
    apply fieldsWritable_iff.mpr
    intro name k hk
    have := List.sizeOf_lt_of_mem hk
    exact isWritable_of_short k (fun n hn => h n (.object hk hn))
termination_by sizeOf j
decreasing_by
  · simp only [Json.list.sizeOf_spec]
    omega
  · simp only [Json.object.sizeOf_spec]
    simp only [Prod.mk.sizeOf_spec] at this
    omega

theorem isWritable_iff {j : Json} : j.isWritable = true ↔ j.Short :=
  ⟨fun hj _ hn => hn.short hj, isWritable_of_short j⟩

end Json

end PropAtlas
