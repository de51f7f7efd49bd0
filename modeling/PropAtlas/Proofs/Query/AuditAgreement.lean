import PropAtlas.Audit
import PropAtlas.Proofs.Query.Instances

/-! An audit for a prop and the query for its absence see the same elements. The audit looks at the
attribute names of each element in turn; the query merges elements and declarations by place, indexes
their props and sorts them. -/

namespace PropAtlas
open scoped List

/-- Where an element that lacks a prop stands. -/
def Audit.Lacking.place (l : Audit.Lacking) : Query.Place := (l.file, l.line, l.column)

namespace Query

/-- Where a match is, if it shows its column. -/
def Match.place? (m : Match) : Option Place := m.column.map (fun column => (m.file, m.line, column))

/-- The matches that stand where an element does that a name refers to. -/
def atSites (ss : List Site) (component : Text) (ms : List Match) : List Match :=
  ms.filter (fun m => m.place?.any (standsAt (named ss component)))

/-- The condition that a prop is not there. -/
def absent (prop : Text) : Criterion := { name := prop, present := some false }

/-! ### Matches -/

theorem matchOf_place {criteria : List Criterion} {logic : Logic} {i : Instance} {m : Match}
    (h : matchOf criteria logic true i = some m) :
    m.place? = some i.place ∧ m.hasSpread = i.hasSpread := by
  obtain ⟨hfile, hline, hcolumn, _, hspread⟩ := matchOf_eq_some h
  refine ⟨?_, hspread⟩
  rw [Match.place?, hfile, hline, hcolumn]
  rfl

/-- The matches that stand where elements do are the matches of the elements. -/
theorem atSites_run_perm (ds : List Declaration) (ss : List Site) (component : Text)
    (criteria : List Criterion) (logic : Logic) (hcol : ∀ s ∈ ss, 0 ≤ s.column)
    (hplaces : (ss.map Site.place).Nodup) :
    atSites ss component (run ds ss component criteria logic true) ~
      (named ss component).filterMap (fun s => matchOf criteria logic true (Instance.ofSite s)) := by
  have hswap : atSites ss component (run ds ss component criteria logic true) =
      ((instances ds ss component).filter
        (fun i => standsAt (named ss component) i.place)).filterMap
          (matchOf criteria logic true) := by
    rw [atSites, run, List.filter_filterMap, List.filterMap_filter]
    apply List.filterMap_congr
    intro i _
    cases hm : matchOf criteria logic true i with
    | none => simp
    | some m =>
      rw [Option.filter_some, (matchOf_place hm).1, Option.any_some]
  have hperm := (instances_standsAt_perm ds ss component hcol hplaces).filterMap
    (matchOf criteria logic true)
  rw [List.filterMap_map] at hperm
  rw [hswap]
  exact hperm

/-! ### Absence -/

theorem matched_absent (props : Table Text PropUsage) (prop : Text) (logic : Logic)
    (columns : Bool) :
    (evaluate props [absent prop] logic columns).matched = (props.get? prop).isNone := by
  have hv : ((absent prop).verdict props).passed = (props.get? prop).isNone := by
    cases h : props.get? prop <;> simp [Criterion.verdict, absent, h]
  cases logic <;> simp [evaluate, Logic.holds, hv]

theorem get?_indexProps_eq_none_iff {us : List PropUsage} {prop : Text} :
    (indexProps us).get? prop = none ↔ ∀ u ∈ us, u.spread = false → Text.ofString u.name ≠ prop := by
  rw [indexProps, Table.get?_ofList_eq_none_iff, List.forall_mem_map]
  simp

theorem mem_propNames_iff {s : Site} {prop : Text} (hp : prop ≠ Text.ofString spreadProp) :
    prop ∈ (Audit.propNames s).map Text.ofString ↔
      ∃ u ∈ s.props, u.spread = false ∧ Text.ofString u.name = prop := by
  rw [Audit.propNames, List.map_map, List.mem_map]
  constructor
  · rintro ⟨u, hu, he⟩
    cases hs : u.spread with
    | true => exact absurd (by simpa [hs] using he.symm) hp
    | false => exact ⟨u, hu, hs, by simpa [hs] using he⟩
  · rintro ⟨u, hu, hs, he⟩
    exact ⟨u, hu, by simpa [hs] using he⟩

/-- An element passes a prop exactly when its index has an entry for it. -/
theorem isNone_get?_indexProps (s : Site) {prop : Text} (hp : prop ≠ Text.ofString spreadProp) :
    ((indexProps s.props).get? prop).isNone = !Audit.passes prop false s := by
  rw [Bool.eq_iff_iff, Option.isNone_iff_eq_none, get?_indexProps_eq_none_iff, Audit.passes,
    Bool.false_and, Bool.or_false, Bool.not_eq_true', ← Bool.not_eq_true, List.contains_iff_mem,
    mem_propNames_iff hp]
  simp

theorem matchOf_absent (s : Site) {prop : Text} (logic : Logic) (hp : prop ≠ Text.ofString spreadProp) :
    (matchOf [absent prop] logic true (Instance.ofSite s)).isSome =
      !Audit.passes prop false s := by
  rw [← isNone_get?_indexProps s hp, ← matched_absent _ _ logic true, matchOf]
  change (if (evaluate (indexProps s.props) [absent prop] logic true).matched then _ else _ :
    Option Match).isSome = _
  cases (evaluate (indexProps s.props) [absent prop] logic true).matched <;> rfl

theorem matchOf_absent_unspread (s : Site) {prop : Text} (logic : Logic)
    (hp : prop ≠ Text.ofString spreadProp) :
    ((matchOf [absent prop] logic true (Instance.ofSite s)).filter
      (fun m => !m.hasSpread)).isSome = !Audit.passes prop true s := by
  have hs := matchOf_absent s logic hp
  have htrust : Audit.passes prop true s = (Audit.passes prop false s || s.hasSpread) := by
    simp [Audit.passes]
  cases hm : matchOf [absent prop] logic true (Instance.ofSite s) with
  | none =>
    have hpass : Audit.passes prop false s = true := by simpa [hm] using hs
    simp [htrust, hpass]
  | some m =>
    have hpass : Audit.passes prop false s = false := by simpa [hm] using hs
    have hspread : m.hasSpread = s.hasSpread := (matchOf_place hm).2
    cases hsp : s.hasSpread <;> simp [Option.filter, htrust, hpass, hspread, hsp]

/-! ### Places -/

theorem filterMap_place? (f : Site → Option Match)
    (hf : ∀ s m, f s = some m → m.place? = some s.place) (ss : List Site) :
    (ss.filterMap f).filterMap Match.place? =
      (ss.filter (fun s => (f s).isSome)).map Site.place := by
  induction ss with
  | nil => rfl
  | cons s ss ih =>
    cases hs : f s with
    | none =>
      rw [List.filterMap_cons_none hs, List.filter_cons_of_neg (by simp [hs])]
      exact ih
    | some m =>
      rw [List.filterMap_cons_some hs, List.filterMap_cons_some (hf s m hs),
        List.filter_cons_of_pos (by simp [hs]), List.map_cons, ih]

theorem map_place_lacking (ss : List Site) (component prop : Text) (trusting : Bool) :
    (Audit.run ss component prop trusting).lacking.map Audit.Lacking.place =
      ((named ss component).filter (fun s => !Audit.passes prop trusting s)).map Site.place := by
  rw [Audit.run, List.map_map]
  rfl

/-- The elements that an audit flags stand where the query for the absence of the prop finds elements;
if a spread counts as passing the prop, only those without one are flagged. The audit counts the
elements that the query without criteria finds. -/
theorem audit_agrees_with_query (ds : List Declaration) (ss : List Site) (component prop : Text)
    (logic : Logic) (hcol : ∀ s ∈ ss, 0 ≤ s.column) (hplaces : (ss.map Site.place).Nodup)
    (hp : prop ≠ Text.ofString spreadProp) :
    (Audit.run ss component prop false).lacking.map Audit.Lacking.place ~
      (atSites ss component (run ds ss component [absent prop] logic true)).filterMap Match.place? ∧
    (Audit.run ss component prop true).lacking.map Audit.Lacking.place ~
      ((atSites ss component (run ds ss component [absent prop] logic true)).filter
        (fun m => !m.hasSpread)).filterMap Match.place? ∧
    ((atSites ss component (run ds ss component [] logic true)).filterMap Match.place?).Nodup ∧
    ∀ trusting, (Audit.run ss component prop trusting).total =
      ((atSites ss component (run ds ss component [] logic true)).filterMap Match.place?).length := by
  have hplace (criteria : List Criterion) (s : Site) (m : Match)
      (h : matchOf criteria logic true (Instance.ofSite s) = some m) : m.place? = some s.place :=
    (matchOf_place h).1
  have habsent := atSites_run_perm ds ss component [absent prop] logic hcol hplaces
  have hall := (atSites_run_perm ds ss component [] logic hcol hplaces).filterMap Match.place?
  -- Without criteria every element matches, under either logic.
  have hmatched (s : Site) : (matchOf [] logic true (Instance.ofSite s)).isSome = true := by
    cases logic <;> rfl
  rw [filterMap_place? _ (hplace []), List.filter_eq_self.mpr (fun s _ => hmatched s)] at hall
  refine ⟨?_, ?_, ?_, ?_⟩
  · rw [map_place_lacking]
    refine List.Perm.trans ?_ (habsent.filterMap Match.place?).symm
    rw [filterMap_place? _ (hplace _)]
    simp only [matchOf_absent _ logic hp]
    exact List.Perm.refl _
  · rw [map_place_lacking]
    refine List.Perm.trans ?_
      ((habsent.filter (fun m => !m.hasSpread)).filterMap Match.place?).symm
    rw [List.filter_filterMap, filterMap_place?]
    · simp only [matchOf_absent_unspread _ logic hp]
      exact List.Perm.refl _
    · intro s m h
      exact hplace _ s m (Option.filter_eq_some_iff.mp h).1
  · exact hall.nodup_iff.mpr ((List.filter_sublist.map _).nodup hplaces)
  · intro trusting
    rw [hall.length_eq, List.length_map]
    rfl

/-- Three elements on one line, one of them with a dotted name and one with a spread, and the
declaration of the component. -/
theorem audit_agrees_on_shared_line :
    let usage : PropUsage := { name := "a", component := "B", file := "f", line := 1, column := 0 }
    let ss : List Site := [⟨"B", "B", "f", 1, 9, [usage, usage]⟩, ⟨"UI.B", "B", "f", 1, 4, []⟩,
      ⟨"B", "B", "f", 1, 20, [{ usage with name := spreadProp, spread := true }]⟩]
    let ds : List Declaration := [⟨"B", "f", 1, 0, [], none⟩, ⟨"B", "f", 2, 0, [], none⟩]
    let b := Text.ofString "B"
    let a := Text.ofString "a"
    (ss.map Site.place).Nodup ∧
    [("f", 1, 4), ("f", 1, 20)] ~
      (atSites ss b (run ds ss b [absent a] .and true)).filterMap Match.place? ∧
    [("f", 1, 4)] ~ ((atSites ss b (run ds ss b [absent a] .and true)).filter
      (fun m => !m.hasSpread)).filterMap Match.place? := by
  intro usage ss ds b a
  obtain ⟨hlacking, htrusting, _⟩ :=
    audit_agrees_with_query ds ss b a .and (by decide) (by decide) (by decide)
  have hplaces : (Audit.run ss b a false).lacking.map Audit.Lacking.place =
      [("f", 1, 4), ("f", 1, 20)] := by decide
  have hone : (Audit.run ss b a true).lacking.map Audit.Lacking.place = [("f", 1, 4)] := by decide
  rw [hplaces] at hlacking
  rw [hone] at htrusting
  exact ⟨by decide, hlacking, htrusting⟩

end Query

end PropAtlas
