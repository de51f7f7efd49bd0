import PropAtlas.Proofs.Query.Instances
import Mathlib.Data.List.Forall2

/-!
Criteria as conditions on instances. Whether an instance is kept depends on which criteria it meets, not on
their order or on how often one is asked.

Main statement: criteria joined by AND keep what each part keeps, criteria joined by OR what one of the
parts keeps, and no criteria at all keep everything.
-/

namespace PropAtlas.Query
open scoped List

/-- Whether an instance meets a criterion. -/
def Criterion.metBy (c : Criterion) (i : Instance) : Bool := (c.verdict i.props).passed

/-- The instances that a query reports. -/
def kept (ds : List Declaration) (ss : List Site) (component : Text) (criteria : List Criterion)
    (logic : Logic) : List Instance :=
  (instances ds ss component).filter (fun i => (matchOf criteria logic true i).isSome)

/-- Two matches of one instance. They may differ in which props met the criteria. -/
structure Match.SameInstance (m n : Match) : Prop where
  component : m.component = n.component
  file : m.file = n.file
  line : m.line = n.line
  column : m.column = n.column
  props : m.props = n.props
  hasSpread : m.hasSpread = n.hasSpread

/-- Two matches of one instance with the same props that met the criteria, in whatever order. -/
def Match.SameButOrder (m n : Match) : Prop :=
  m.SameInstance n ∧ ∀ name, m.matching.get? name = n.matching.get? name

variable {ds : List Declaration} {ss : List Site} {component : Text}
variable {cs es : List Criterion} {logic : Logic} {columns : Bool} {i : Instance}

/-! ### Which instances are kept -/

theorem matched_evaluate (props : Table Text PropUsage) (cs : List Criterion) (logic : Logic)
    (columns : Bool) : (evaluate props cs logic columns).matched =
      logic.holds (cs.map (fun c => (c.verdict props).passed)) := by
  rw [evaluate, List.map_map]
  rfl

theorem isSome_matchOf (cs : List Criterion) (logic : Logic) (columns : Bool) (i : Instance) :
    (matchOf cs logic columns i).isSome = logic.holds (cs.map (fun c => c.metBy i)) := by
  have hmatched : (evaluate i.props cs logic columns).matched =
      logic.holds (cs.map (fun c => c.metBy i)) := matched_evaluate i.props cs logic columns
  rw [← hmatched, matchOf]
  cases (evaluate i.props cs logic columns).matched <;> rfl

theorem mem_kept_iff : i ∈ kept ds ss component cs logic ↔
    i ∈ instances ds ss component ∧ logic.holds (cs.map (fun c => c.metBy i)) = true := by
  rw [kept, List.mem_filter, isSome_matchOf]

theorem holds_and_iff : Logic.and.holds (cs.map (fun c => c.metBy i)) = true ↔
    ∀ c ∈ cs, c.metBy i = true := by
  simp [Logic.holds]

theorem holds_or_iff : Logic.or.holds (cs.map (fun c => c.metBy i)) = true ↔
    cs = [] ∨ ∃ c ∈ cs, c.metBy i = true := by
  simp [Logic.holds]

/-- The matches of a query are those of the instances it keeps, in their order. -/
theorem map_matchOf_kept (ds : List Declaration) (ss : List Site) (component : Text)
    (cs : List Criterion) (logic : Logic) (columns : Bool) :
    (kept ds ss component cs logic).map (matchOf cs logic columns) =
      (run ds ss component cs logic columns).map some := by
  have hkept : kept ds ss component cs logic =
      (instances ds ss component).filter (fun i => (matchOf cs logic columns i).isSome) := by
    apply List.filter_congr
    intro i _
    rw [isSome_matchOf, isSome_matchOf]
  rw [hkept, run]
  induction instances ds ss component with
  | nil => rfl
  | cons i is ih =>
    cases hm : matchOf cs logic columns i with
    | none => rw [List.filter_cons_of_neg (by simp [hm]), List.filterMap_cons_none hm, ih]
    | some m =>
      rw [List.filter_cons_of_pos (by simp [hm]), List.filterMap_cons_some hm, List.map_cons, ih, hm,
        List.map_cons]

/-- How many matches a query has does not depend on the order in which they are reported. -/
theorem length_run (ds : List Declaration) (ss : List Site) (component : Text)
    (cs : List Criterion) (logic : Logic) (columns : Bool) :
    (run ds ss component cs logic columns).length =
      (merged ds ss component).countP (fun e => logic.holds (cs.map (fun c => c.metBy e.2))) := by
  have hkept := congrArg List.length (map_matchOf_kept ds ss component cs logic columns)
  rw [List.length_map, List.length_map] at hkept
  rw [← hkept, kept, ← List.countP_eq_length_filter, (instances_perm ds ss component).countP_eq,
    List.countP_map]
  apply List.countP_congr
  intro e _
  rw [Function.comp_apply, isSome_matchOf]

theorem kept_nil (ds : List Declaration) (ss : List Site) (component : Text) (logic : Logic) :
    kept ds ss component [] logic = instances ds ss component := by
  apply List.filter_eq_self.mpr
  intro i _
  rw [isSome_matchOf]
  cases logic <;> rfl

/-- A query that every instance meets as soon as it meets another one keeps at least as much. -/
theorem kept_sublist (ds : List Declaration) (ss : List Site) (component : Text)
    (h : ∀ i, logic.holds (cs.map (fun c => c.metBy i)) = true →
      logic.holds (es.map (fun c => c.metBy i)) = true) :
    kept ds ss component cs logic <+ kept ds ss component es logic := by
  apply List.monotone_filter_right
  intro i hi
  rw [isSome_matchOf] at hi ⊢
  exact h i hi

/-! ### Which props are shown -/

/-- Every criterion looks at the prop of its name only. -/
theorem usage_verdict (c : Criterion) (props : Table Text PropUsage) :
    (c.verdict props).usage = props.get? c.name := by
  obtain ⟨name, value, operator, present⟩ := c
  cases present with
  | some wanted => rfl
  | none =>
    cases value with
    | none => cases h : props.get? name <;> simp [Criterion.verdict, h]
    | some v => cases h : props.get? name <;> simp [Criterion.verdict, h]

/-- What a criterion that is met adds to the props that are shown. -/
def entryOf (props : Table Text PropUsage) (columns : Bool) (c : Criterion) :
    Option (Text × Detail) :=
  if (c.verdict props).passed then
    (c.verdict props).usage.map (fun u => (c.name, detail columns u))
  else none

theorem entryOf_eq_some_iff {props : Table Text PropUsage} {c : Criterion} {name : Text}
    {shown : Detail} : entryOf props columns c = some (name, shown) ↔
      (c.name = name ∧ (c.verdict props).passed = true) ∧
        ∃ u, props.get? name = some u ∧ detail columns u = shown := by
  rw [entryOf, usage_verdict]
  cases (c.verdict props).passed with
  | false => simp
  | true =>
    simp only [if_true, Option.map_eq_some_iff, Prod.mk.injEq, and_true]
    constructor
    · rintro ⟨u, hu, rfl, rfl⟩
      exact ⟨rfl, u, hu, rfl⟩
    · rintro ⟨rfl, u, hu, rfl⟩
      exact ⟨u, hu, rfl, rfl⟩

/-- A prop is shown as one that met the criteria if a criterion of its name was met. -/
theorem get?_matching_eq_some_iff {props : Table Text PropUsage} {name : Text} {shown : Detail} :
    (evaluate props cs logic columns).matching.get? name = some shown ↔
      (∃ c ∈ cs, c.name = name ∧ (c.verdict props).passed = true) ∧
        ∃ u, props.get? name = some u ∧ detail columns u = shown := by
  have hmatching : (evaluate props cs logic columns).matching =
      Table.ofList (cs.filterMap (entryOf props columns)) := by
    rw [evaluate, List.filterMap_map]
    rfl
  -- The value under a name is that of the prop of this name, whichever criterion put it there.
  have hsame : ∀ e ∈ cs.filterMap (entryOf props columns),
      ∀ e' ∈ cs.filterMap (entryOf props columns), e.1 = e'.1 → e.2 = e'.2 := by
    rintro ⟨key, d⟩ he ⟨key', d'⟩ he' rfl
    obtain ⟨c, _, hc⟩ := List.mem_filterMap.mp he
    obtain ⟨c', _, hc'⟩ := List.mem_filterMap.mp he'
    obtain ⟨_, u, hu, rfl⟩ := entryOf_eq_some_iff.mp hc
    obtain ⟨_, u', hu', rfl⟩ := entryOf_eq_some_iff.mp hc'
    exact congrArg (detail columns) (Option.some.inj (hu.symm.trans hu'))
  rw [hmatching, Table.get?_ofList_eq_some_iff hsame, List.mem_filterMap]
  simp only [entryOf_eq_some_iff]
  constructor
  · rintro ⟨c, hc, hmet, hprop⟩
    exact ⟨⟨c, hc, hmet⟩, hprop⟩
  · rintro ⟨⟨c, hc, hmet⟩, hprop⟩
    exact ⟨c, hc, hmet, hprop⟩

theorem matching_of_matchOf {m : Match} (h : matchOf cs logic columns i = some m) :
    m.component = i.component ∧ m.matching = (evaluate i.props cs logic columns).matching := by
  unfold matchOf at h
  dsimp only at h
  split at h
  · cases h
    exact ⟨rfl, rfl⟩
  · cases h

theorem sameInstance_of_matchOf {logic' : Logic} {m n : Match}
    (hm : matchOf cs logic columns i = some m) (hn : matchOf es logic' columns i = some n) :
    m.SameInstance n := by
  obtain ⟨hfile, hline, hcolumn, hprops, hspread⟩ := matchOf_eq_some hm
  obtain ⟨hfile', hline', hcolumn', hprops', hspread'⟩ := matchOf_eq_some hn
  have hcomponent := (matching_of_matchOf hm).1
  have hcomponent' := (matching_of_matchOf hn).1
  exact ⟨hcomponent.trans hcomponent'.symm, hfile.trans hfile'.symm, hline.trans hline'.symm,
    hcolumn.trans hcolumn'.symm, hprops.trans hprops'.symm, hspread.trans hspread'.symm⟩

/-! ### Lists with the same criteria -/

theorem holds_congr (h : ∀ c, c ∈ cs ↔ c ∈ es) (logic : Logic) (i : Instance) :
    logic.holds (cs.map (fun c => c.metBy i)) = logic.holds (es.map (fun c => c.metBy i)) := by
  rw [Bool.eq_iff_iff]
  cases logic with
  | and =>
    rw [holds_and_iff, holds_and_iff]
    simp only [h]
  | or =>
    have hnil : cs = [] ↔ es = [] := by
      rw [List.eq_nil_iff_forall_not_mem, List.eq_nil_iff_forall_not_mem]
      simp only [h]
    rw [holds_or_iff, holds_or_iff, hnil]
    simp only [h]

/-- The order of criteria and how often they are asked make no difference to a match. -/
theorem rel_matchOf (h : ∀ c, c ∈ cs ↔ c ∈ es) (logic : Logic) (columns : Bool) (i : Instance) :
    Option.Rel Match.SameButOrder (matchOf cs logic columns i) (matchOf es logic columns i) := by
  have hsome : (matchOf cs logic columns i).isSome = (matchOf es logic columns i).isSome := by
    rw [isSome_matchOf, isSome_matchOf, holds_congr h]
  cases hm : matchOf cs logic columns i with
  | none =>
    rw [hm] at hsome
    have hn : matchOf es logic columns i = none := by simpa using hsome.symm
    rw [hn]
    exact .none
  | some m =>
    rw [hm] at hsome
    obtain ⟨n, hn⟩ := Option.isSome_iff_exists.mp hsome.symm
    rw [hn]
    refine .some ⟨sameInstance_of_matchOf hm hn, ?_⟩
    intro name
    rw [(matching_of_matchOf hm).2, (matching_of_matchOf hn).2]
    apply Option.ext
    intro shown
    rw [get?_matching_eq_some_iff, get?_matching_eq_some_iff]
    simp only [h]

/-- Criteria are conditions that a query joins. Under AND, two lists of criteria together keep what each
of them keeps; under OR, what one of them keeps if neither is empty; and no criteria keep everything.
Order and repetition make no difference to what is kept or to the props that are shown. So one more
criterion, wherever it stands, never adds a match under AND and never loses one under OR. -/
theorem criteria_combine (ds : List Declaration) (ss : List Site) (component : Text) :
    (∀ cs logic columns, (kept ds ss component cs logic).map (matchOf cs logic columns) =
      (run ds ss component cs logic columns).map some) ∧
    (∀ cs es i, i ∈ kept ds ss component (cs ++ es) .and ↔
      i ∈ kept ds ss component cs .and ∧ i ∈ kept ds ss component es .and) ∧
    (∀ cs es i, cs ≠ [] → es ≠ [] → (i ∈ kept ds ss component (cs ++ es) .or ↔
      i ∈ kept ds ss component cs .or ∨ i ∈ kept ds ss component es .or)) ∧
    (∀ logic, kept ds ss component [] logic = instances ds ss component) ∧
    (∀ cs es logic, (∀ c, c ∈ cs ↔ c ∈ es) →
      kept ds ss component cs logic = kept ds ss component es logic ∧
      ∀ columns, List.Forall₂ Match.SameButOrder (run ds ss component cs logic columns)
        (run ds ss component es logic columns)) ∧
    (∀ before after c, kept ds ss component (before ++ c :: after) .and <+
      kept ds ss component (before ++ after) .and) ∧
    ∀ before after c, before ++ after ≠ [] → kept ds ss component (before ++ after) .or <+
      kept ds ss component (before ++ c :: after) .or := by
  refine ⟨map_matchOf_kept ds ss component, ?_, ?_, kept_nil ds ss component, ?_, ?_, ?_⟩
  · intro cs es i
    simp only [mem_kept_iff, holds_and_iff, List.forall_mem_append]
    tauto
  · intro cs es i hcs hes
    simp only [mem_kept_iff, holds_or_iff, List.append_eq_nil_iff, hcs, hes, and_self, false_or,
      List.mem_append, or_and_right, exists_or]
    exact and_or_left
  · intro cs es logic h
    refine ⟨?_, fun columns => ?_⟩
    · apply List.filter_congr
      intro i _
      rw [isSome_matchOf, isSome_matchOf, holds_congr h]
    · have hrel : Relator.LiftFun Eq (Option.Rel Match.SameButOrder) (matchOf cs logic columns)
          (matchOf es logic columns) := by
        rintro i _ rfl
        exact rel_matchOf h logic columns i
      exact List.rel_filterMap hrel (List.forall₂_refl _)
  · intro before after c
    apply kept_sublist
    intro i hi
    rw [holds_and_iff, List.forall_mem_append] at hi ⊢
    exact ⟨hi.1, (List.forall_mem_cons.mp hi.2).2⟩
  · intro before after c hne
    apply kept_sublist
    intro i hi
    rw [holds_or_iff] at hi ⊢
    -- The criterion that was met stands among the others still.
    obtain ⟨e, he, hmet⟩ := hi.resolve_left hne
    refine Or.inr ⟨e, ?_, hmet⟩
    rcases List.mem_append.mp he with hbefore | hafter
    · exact List.mem_append_left _ hbefore
    · exact List.mem_append_right _ (List.mem_cons_of_mem _ hafter)

/-- Three elements, of which the first one meets both of two criteria, the second one of them and the third
neither. -/
theorem criteria_combine_three :
    let usage (name : String) : PropUsage :=
      { name := name, component := "B", file := "f", line := 1, column := 0 }
    let ss : List Site := [⟨"B", "B", "f", 1, 0, [usage "a", usage "b"]⟩,
      ⟨"B", "B", "f", 2, 0, [usage "b"]⟩, ⟨"B", "B", "f", 3, 0, []⟩]
    let b := Text.ofString "B"
    let one : Criterion := { name := Text.ofString "a", value := some (.text []) }
    let two : Criterion := { name := Text.ofString "b", present := some true }
    (∀ c, c ∈ [one, two] ↔ c ∈ [two, one, two]) ∧
    List.Forall₂ Match.SameButOrder (run [] ss b [one, two] .and true)
      (run [] ss b [two, one, two] .and true) ∧
    (∀ i, i ∈ kept [] ss b [one, two] .or ↔
      i ∈ kept [] ss b [one] .or ∨ i ∈ kept [] ss b [two] .or) ∧
    kept [] ss b [one] .or <+ kept [] ss b [two, one] .or ∧
    (run [] ss b [one, two] .and true).length = 1 ∧
    (run [] ss b [one, two] .or true).length = 2 := by
  intro usage ss b one two
  have hsame : ∀ c, c ∈ [one, two] ↔ c ∈ [two, one, two] := by
    intro c
    simp only [List.mem_cons, List.not_mem_nil, or_false]
    tauto
  obtain ⟨_, _, hor, _, horder, _, hmore⟩ := criteria_combine [] ss b
  have hboth : (run [] ss b [one, two] .and true).length = 1 := by
    rw [length_run]
    decide
  have heither : (run [] ss b [one, two] .or true).length = 2 := by
    rw [length_run]
    decide
  exact ⟨hsame, (horder _ _ .and hsame).2 true, fun i => hor [one] [two] i (by simp) (by simp),
    hmore [] [one] two (by simp), hboth, heither⟩

end PropAtlas.Query
