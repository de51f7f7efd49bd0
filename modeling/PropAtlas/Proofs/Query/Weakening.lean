import PropAtlas.Proofs.Query.Combination
import Mathlib.Data.List.Infix
import Mathlib.Logic.Relation

/-!
Weaker criteria. A criterion gets weaker when it asks for a part of a value in place of the value, for a
prop in place of its value, or for a prop by its name alone.

Main statement: to make criteria weaker, any of them and as often as one likes, never loses a match.
-/

namespace PropAtlas

namespace Text

theorem hasPart_iff {t part : Text} : t.hasPart part = true ↔ part <:+: t := by
  induction t with
  | nil => simp [hasPart]
  | cons p t ih => rw [hasPart, Bool.or_eq_true, List.isPrefixOf_iff_prefix, ih, List.infix_cons_iff]

end Text

namespace Query
open scoped List

/-- The value of a criterion as it is spelled. No value is spelled as null is. -/
def spelledValue (v : Option Scalar) : Text := ((v.map Scalar.toJson).getD .null).spelled

/-- One criterion made weaker in one step. -/
inductive Weakens : Criterion → Criterion → Prop where
  /-- A value has to be in the prop, not to be it. -/
  | toPart (name : Text) (v : Scalar) :
      Weakens ⟨name, some v, .equals, none⟩ ⟨name, some v, .contains, none⟩
  /-- A part of what had to be in the prop. -/
  | toSmallerPart (name : Text) (v : Scalar) (w : Option Scalar)
      (h : spelledValue w <:+: v.spelled) :
      Weakens ⟨name, some v, .contains, none⟩ ⟨name, w, .contains, none⟩
  /-- The prop has to be there, with whatever value. -/
  | toPresence (name : Text) (v : Scalar) (w : Option Scalar) (o o' : Operator) :
      Weakens ⟨name, some v, o, none⟩ ⟨name, w, o', some true⟩
  /-- The prop has to be there, by its name alone. -/
  | toName (name : Text) (v : Option Scalar) (o o' : Operator) :
      Weakens ⟨name, v, o, some true⟩ ⟨name, none, o', none⟩

variable {c e : Criterion} {cs es : List Criterion} {i : Instance}

/-! ### When a criterion is met -/

theorem metBy_value_iff {name : Text} {v : Scalar} {o : Operator} :
    Criterion.metBy ⟨name, some v, o, none⟩ i = true ↔
      ∃ u, i.props.get? name = some u ∧
        (if o = .equals then valueText u = v.spelled else v.spelled <:+: valueText u) := by
  cases hget : i.props.get? name with
  | none => simp [Criterion.metBy, Criterion.verdict, hget]
  | some u => cases o <;> simp [Criterion.metBy, Criterion.verdict, hget, Text.hasPart_iff]

theorem metBy_present_iff {name : Text} {v : Option Scalar} {o : Operator} :
    Criterion.metBy ⟨name, v, o, some true⟩ i = true ↔ ∃ u, i.props.get? name = some u := by
  cases hget : i.props.get? name <;> simp [Criterion.metBy, Criterion.verdict, hget]

theorem metBy_name_iff {name : Text} {o : Operator} :
    Criterion.metBy ⟨name, none, o, none⟩ i = true ↔ ∃ u, i.props.get? name = some u := by
  cases hget : i.props.get? name <;> simp [Criterion.metBy, Criterion.verdict, hget]

theorem metBy_of_weakens (h : Weakens c e) (hc : c.metBy i = true) : e.metBy i = true := by
  cases h with
  | toPart name v =>
    obtain ⟨u, hu, heq⟩ := metBy_value_iff.mp hc
    have hvalue : valueText u = v.spelled := by simpa using heq
    exact metBy_value_iff.mpr ⟨u, hu, by simp [hvalue]⟩
  | toSmallerPart name v w h =>
    obtain ⟨u, hu, hpart⟩ := metBy_value_iff.mp hc
    have hv : v.spelled <:+: valueText u := by simpa using hpart
    cases w with
    | none => exact metBy_name_iff.mpr ⟨u, hu⟩
    | some w =>
      have hw : w.spelled <:+: valueText u := h.trans hv
      exact metBy_value_iff.mpr ⟨u, hu, by simpa using hw⟩
  | toPresence name v w o o' =>
    obtain ⟨u, hu, _⟩ := metBy_value_iff.mp hc
    exact metBy_present_iff.mpr ⟨u, hu⟩
  | toName name v o o' => exact metBy_name_iff.mpr (metBy_present_iff.mp hc)

theorem metBy_of_weaker (h : Relation.ReflTransGen Weakens c e) (hc : c.metBy i = true) :
    e.metBy i = true := by
  induction h with
  | refl => exact hc
  | tail _ hstep ih => exact metBy_of_weakens hstep ih

/-! ### When a list of criteria is met -/

/-- Both ways to join criteria keep their order. -/
theorem holds_of_forall₂ (h : List.Forall₂ (fun c e => c.metBy i = true → e.metBy i = true) cs es)
    (logic : Logic) (hcs : logic.holds (cs.map (fun c => c.metBy i)) = true) :
    logic.holds (es.map (fun c => c.metBy i)) = true := by
  cases logic with
  | and =>
    rw [holds_and_iff] at hcs ⊢
    induction h with
    | nil => exact hcs
    | cons hfirst _ ih =>
      obtain ⟨hc, hrest⟩ := List.forall_mem_cons.mp hcs
      exact List.forall_mem_cons.mpr ⟨hfirst hc, ih hrest⟩
  | or =>
    have hmet : (∃ c ∈ cs, c.metBy i = true) → ∃ e ∈ es, e.metBy i = true := by
      clear hcs
      induction h with
      | nil => exact id
      | cons hfirst _ ih =>
        rw [List.exists_mem_cons_iff, List.exists_mem_cons_iff]
        exact Or.imp hfirst ih
    rw [holds_or_iff] at hcs ⊢
    rcases hcs with rfl | hcs
    · exact Or.inl (List.forall₂_nil_left_iff.mp h)
    · exact Or.inr (hmet hcs)

theorem holds_of_weaker (h : List.Forall₂ (Relation.ReflTransGen Weakens) cs es) (logic : Logic)
    (hcs : logic.holds (cs.map (fun c => c.metBy i)) = true) :
    logic.holds (es.map (fun c => c.metBy i)) = true := by
  apply holds_of_forall₂ (h.imp ?_) logic hcs
  intro c e hstep
  exact metBy_of_weaker hstep

/-! ### Matches -/

theorem sublistForall₂_filterMap {α β : Type} {f g : α → Option β} {R : β → β → Prop}
    (h : ∀ x y, f x = some y → ∃ z, g x = some z ∧ R y z) (xs : List α) :
    List.SublistForall₂ R (xs.filterMap f) (xs.filterMap g) := by
  induction xs with
  | nil => exact .nil
  | cons x xs ih =>
    cases hf : f x with
    | some y =>
      obtain ⟨z, hg, hyz⟩ := h x y hf
      rw [List.filterMap_cons_some hf, List.filterMap_cons_some hg]
      exact .cons hyz ih
    | none =>
      rw [List.filterMap_cons_none hf]
      cases hg : g x with
      | none => rwa [List.filterMap_cons_none hg]
      | some z =>
        rw [List.filterMap_cons_some hg]
        exact .cons_right ih

/-- Weaker criteria keep every instance that the criteria kept, in the same order, and report each of
them again. -/
theorem weaker_criteria_keep (ds : List Declaration) (ss : List Site) (component : Text)
    (logic : Logic) (h : List.Forall₂ (Relation.ReflTransGen Weakens) cs es) :
    kept ds ss component cs logic <+ kept ds ss component es logic ∧
    ∀ columns, List.SublistForall₂ Match.SameInstance (run ds ss component cs logic columns)
      (run ds ss component es logic columns) := by
  refine ⟨kept_sublist ds ss component (fun i => holds_of_weaker h logic), fun columns => ?_⟩
  apply sublistForall₂_filterMap
  intro i m hm
  have hes : (matchOf es logic columns i).isSome = true := by
    rw [isSome_matchOf]
    apply holds_of_weaker h logic
    rw [← isSome_matchOf cs logic columns, hm]
    rfl
  obtain ⟨n, hn⟩ := Option.isSome_iff_exists.mp hes
  exact ⟨n, hn, sameInstance_of_matchOf hm hn⟩

/-- Two elements, of which only the first one has the values that are asked for. With two of three criteria
weaker, one by a part of a part and one by the name alone, both are found. -/
theorem weaker_criteria_keep_sizes :
    let usage (name value : String) : PropUsage :=
      ⟨name, "B", "f", 1, 0, some (Text.ofString value), false, none⟩
    let ss : List Site := [⟨"B", "B", "f", 1, 0, [usage "kind" "big", usage "size" "12"]⟩,
      ⟨"B", "B", "f", 2, 0, [usage "kind" "bigger", usage "size" "31"]⟩]
    let b := Text.ofString "B"
    let kind := Text.ofString "kind"
    let size := Text.ofString "size"
    let big : Scalar := .text (Text.ofString "big")
    let part : Scalar := .text (Text.ofString "ig")
    let absence : Criterion := { name := Text.ofString "id", present := some false }
    let cs : List Criterion := [⟨kind, some big, .equals, none⟩,
      ⟨size, some (.int 12), .contains, none⟩, absence]
    let es : List Criterion := [⟨kind, some part, .contains, none⟩,
      ⟨size, none, .equals, none⟩, absence]
    List.Forall₂ (Relation.ReflTransGen Weakens) cs es ∧
    kept [] ss b cs .and <+ kept [] ss b es .and ∧
    List.SublistForall₂ Match.SameInstance (run [] ss b cs .and true) (run [] ss b es .and true) ∧
    (run [] ss b cs .and true).length = 1 ∧ (run [] ss b es .and true).length = 2 := by
  intro usage ss b kind size big part absence cs es
  have hkind : Relation.ReflTransGen Weakens ⟨kind, some big, .equals, none⟩
      ⟨kind, some part, .contains, none⟩ :=
    (Relation.ReflTransGen.single (.toPart kind big)).tail
      (.toSmallerPart kind big (some part) (by decide))
  have hsize : Relation.ReflTransGen Weakens ⟨size, some (.int 12), .contains, none⟩
      ⟨size, none, .equals, none⟩ :=
    (Relation.ReflTransGen.single (.toPresence size (.int 12) none .contains .contains)).tail
      (.toName size none .contains .equals)
  have h : List.Forall₂ (Relation.ReflTransGen Weakens) cs es :=
    .cons hkind (.cons hsize (.cons .refl .nil))
  obtain ⟨hkept, hrun⟩ := weaker_criteria_keep [] ss b .and h
  have hbefore : (run [] ss b cs .and true).length = 1 := by
    rw [length_run]
    decide
  have hafter : (run [] ss b es .and true).length = 2 := by
    rw [length_run]
    decide
  exact ⟨h, hkept, hrun true, hbefore, hafter⟩

end Query

end PropAtlas
