import PropAtlas.Audit
import PropAtlas.Proofs.Query.Instances

/-! Objects spread into an element, and the rest that a parameter pattern binds, may hold any prop. To
a query they are opaque: it answers as if they were not there, and only says whether there are any. An
audit may take them to hold the prop it asks for, and then it flags no element that has one. -/

namespace PropAtlas

/-- A declaration without what its pattern does not name. -/
def Declaration.unspread (d : Declaration) : Declaration :=
  { d with props := d.props.filter (fun u => !u.spread) }

/-- An element without the objects spread into it. -/
def Site.unspread (s : Site) : Site :=
  { s with props := s.props.filter (fun u => !u.spread) }

/-- The elements that do not name a prop, whether or not they have a spread. -/
def Audit.flagged (ss : List Site) (component required : Text) : List Site :=
  (Query.named ss component).filter (fun s => !((propNames s).map Text.ofString).contains required)

namespace Query

/-- An instance that does not say whether it has spreads. -/
def Instance.unflagged (i : Instance) : Instance := { i with hasSpread := false }

def Match.unflagged (m : Match) : Match := { m with hasSpread := false }

/-! ### Instances -/

theorem indexProps_unspread (us : List PropUsage) :
    indexProps (us.filter (fun u => !u.spread)) = indexProps us := by
  simp only [indexProps, List.filter_filter, Bool.and_self]

theorem any_spread_unspread (us : List PropUsage) :
    (us.filter (fun u => !u.spread)).any (·.spread) = false := by
  apply List.any_eq_false.mpr
  intro u hu
  simpa using (List.mem_filter.mp hu).2

theorem ofSite_unspread (s : Site) : Instance.ofSite s.unspread = (Instance.ofSite s).unflagged := by
  have hprops : indexProps s.unspread.props = indexProps s.props := indexProps_unspread s.props
  have hspread : s.unspread.hasSpread = false := any_spread_unspread s.props
  rw [Instance.ofSite, hprops, hspread]
  rfl

theorem ofDeclaration_unspread (d : Declaration) :
    Instance.ofDeclaration d.unspread = (Instance.ofDeclaration d).unflagged := by
  have hprops : indexProps d.unspread.props = indexProps d.props := indexProps_unspread d.props
  have hspread : d.unspread.props.any (·.spread) = false := any_spread_unspread d.props
  rw [Instance.ofDeclaration, hprops, hspread]
  rfl

theorem declared_unspread (ds : List Declaration) (component : Text) :
    declared (ds.map Declaration.unspread) component =
      (declared ds component).mapValues Instance.unflagged := by
  rw [declared, declared, Table.mapValues_ofList, Table.mapValues, List.filter_map, List.map_map,
    List.map_map]
  congr 1
  apply List.map_congr_left
  intro d _
  exact congrArg (Prod.mk _) (ofDeclaration_unspread d)

theorem addSite_unspread (t : Table Place Instance) (s : Site) :
    addSite (t.mapValues Instance.unflagged) s.unspread =
      (addSite t s).mapValues Instance.unflagged := by
  rw [addSite, addSite, ofSite_unspread, Table.mapValues_put, Table.mapValues_drop]
  rfl

/-- The table of instances is filled in the same way with spreads and without. -/
theorem merged_unspread (ds : List Declaration) (ss : List Site) (component : Text) :
    merged (ds.map Declaration.unspread) (ss.map Site.unspread) component =
      (merged ds ss component).mapValues Instance.unflagged := by
  have hfold (named : List Site) (t : Table Place Instance) :
      (named.map Site.unspread).foldl addSite (t.mapValues Instance.unflagged) =
        Table.mapValues Instance.unflagged (named.foldl addSite t) := by
    induction named generalizing t with
    | nil => rfl
    | cons s named ih => rw [List.map_cons, List.foldl_cons, addSite_unspread, ih, List.foldl_cons]
  have hnamed : named (ss.map Site.unspread) component = (named ss component).map Site.unspread :=
    List.filter_map
  rw [merged, merged, declared_unspread, hnamed, hfold]

theorem instances_unspread (ds : List Declaration) (ss : List Site) (component : Text) :
    instances (ds.map Declaration.unspread) (ss.map Site.unspread) component =
      (instances ds ss component).map Instance.unflagged := by
  let before (a b : Place × Instance) : Bool := Place.before a.1 b.1
  -- Places are sorted, and a place says nothing about spreads.
  have hsort (t : Table Place Instance) : List.mergeSort (t.mapValues Instance.unflagged) before =
      Table.mapValues Instance.unflagged (t.mergeSort before) := by
    symm
    apply List.map_mergeSort
    intro a _ b _
    rfl
  change ((merged _ _ component).mergeSort before).map (·.2) =
    (((merged ds ss component).mergeSort before).map (·.2)).map Instance.unflagged
  rw [merged_unspread, hsort, Table.mapValues, List.map_map, List.map_map]
  rfl

/-! ### Matches -/

theorem matchOf_unflagged (cs : List Criterion) (logic : Logic) (columns : Bool) (i : Instance) :
    matchOf cs logic columns i.unflagged = (matchOf cs logic columns i).map Match.unflagged := by
  have hprops : i.unflagged.props = i.props := rfl
  unfold matchOf
  rw [hprops]
  dsimp only
  split_ifs <;> rfl

/-- Without spreads a query has the same matches, none of which says that it has a spread. -/
theorem run_unspread (ds : List Declaration) (ss : List Site) (component : Text)
    (cs : List Criterion) (logic : Logic) (columns : Bool) :
    run (ds.map Declaration.unspread) (ss.map Site.unspread) component cs logic columns =
      (run ds ss component cs logic columns).map Match.unflagged := by
  rw [run, run, instances_unspread, List.filterMap_map, List.map_filterMap]
  apply List.filterMap_congr
  intro i _
  exact matchOf_unflagged cs logic columns i

/-- A match says that it has a spread if the element or the declaration has one that it stems from. -/
theorem hasSpread_of_matchOf {ds : List Declaration} {ss : List Site} {component : Text}
    {cs : List Criterion} {logic : Logic} {columns : Bool} {i : Instance} {m : Match}
    (hi : i ∈ instances ds ss component) (hm : matchOf cs logic columns i = some m) :
    (∃ s ∈ named ss component, i = Instance.ofSite s ∧
      (m.hasSpread = true ↔ ∃ u ∈ s.props, u.spread = true)) ∨
    ∃ d ∈ declaring ds component, i = Instance.ofDeclaration d ∧
      (m.hasSpread = true ↔ ∃ u ∈ d.props, u.spread = true) := by
  have hflag : m.hasSpread = i.hasSpread := (matchOf_eq_some hm).2.2.2.2
  rcases instance_cases hi with ⟨s, hs, rfl⟩ | ⟨d, hd, rfl⟩
  · exact Or.inl ⟨s, hs, rfl, by rw [hflag]; exact List.any_eq_true⟩
  · exact Or.inr ⟨d, hd, rfl, by rw [hflag]; exact List.any_eq_true⟩

/-! ### Audits -/

theorem lacking_run (ss : List Site) (component required : Text) (trusting : Bool) :
    (Audit.run ss component required trusting).lacking =
      ((Audit.flagged ss component required).filter (fun s => !(trusting && s.hasSpread))).map
        Audit.lackingOf := by
  change ((named ss component).filter (fun s => !Audit.passes required trusting s)).map _ = _
  rw [Audit.flagged, List.filter_filter]
  congr 1
  apply List.filter_congr
  intro s _
  rw [Audit.passes, Bool.not_or, Bool.and_comm]

/-- What is spread makes no difference to a query but for the flag that says whether there is any. An
audit that takes a spread to hold the prop leaves out the elements with a spread, and flags the others in
the same order; both count the same elements. -/
theorem spreads_opaque {ds ds' : List Declaration} {ss ss' : List Site}
    (hds : ds.map Declaration.unspread = ds'.map Declaration.unspread)
    (hss : ss.map Site.unspread = ss'.map Site.unspread) (component : Text) :
    (∀ cs logic columns, (run ds ss component cs logic columns).map Match.unflagged =
      (run ds' ss' component cs logic columns).map Match.unflagged) ∧
    (∀ cs logic columns, ∀ m ∈ run ds ss component cs logic columns,
      ∃ i ∈ instances ds ss component, matchOf cs logic columns i = some m ∧
        ((∃ s ∈ named ss component, i = Instance.ofSite s ∧
          (m.hasSpread = true ↔ ∃ u ∈ s.props, u.spread = true)) ∨
        ∃ d ∈ declaring ds component, i = Instance.ofDeclaration d ∧
          (m.hasSpread = true ↔ ∃ u ∈ d.props, u.spread = true))) ∧
    ∀ required,
      (Audit.run ss component required false).lacking =
        (Audit.flagged ss component required).map Audit.lackingOf ∧
      (Audit.run ss component required true).lacking =
        ((Audit.flagged ss component required).filter (fun s => !s.hasSpread)).map Audit.lackingOf ∧
      (Audit.run ss component required true).total = (Audit.run ss component required false).total := by
  refine ⟨?_, ?_, ?_⟩
  · intro cs logic columns
    rw [← run_unspread, ← run_unspread, hds, hss]
  · intro cs logic columns m hm
    obtain ⟨i, hi, him⟩ := List.mem_filterMap.mp hm
    exact ⟨i, hi, him, hasSpread_of_matchOf hi him⟩
  · intro required
    refine ⟨?_, ?_, rfl⟩
    · rw [lacking_run]
      simp only [Bool.false_and, Bool.not_false, List.filter_true]
    · rw [lacking_run]
      simp only [Bool.true_and]

/-- Two elements with the same attributes. On one side the first of them has a spread after its attribute,
on the other side there are spreads around it, one under its own name, and one in the second element. -/
theorem spreads_opaque_renamed :
    let usage (name : String) (spread : Bool) : PropUsage :=
      { name := name, component := "B", file := "f", line := 1, column := 0, spread := spread }
    let site (line : Int) (props : List PropUsage) : Site := ⟨"B", "B", "f", line, 0, props⟩
    let ss := [site 1 [usage "a" false, usage spreadProp true], site 2 [usage "a" false]]
    let ss' := [site 1 [usage "a" true, usage "a" false, usage "b" true],
      site 2 [usage "a" false, usage "b" true]]
    let ds : List Declaration := [⟨"B", "f", 3, 0, [usage restProp true], none⟩]
    let ds' : List Declaration := [⟨"B", "f", 3, 0, [], none⟩]
    let comp := Text.ofString "B"
    let prop := Text.ofString "b"
    let cs : List Criterion := [{ name := prop, present := some false }]
    ss.map Site.unspread = ss'.map Site.unspread ∧
    ds.map Declaration.unspread = ds'.map Declaration.unspread ∧
    (run ds ss comp cs .and true).map Match.unflagged =
      (run ds' ss' comp cs .and true).map Match.unflagged ∧
    (Audit.run ss comp prop false).lacking =
      [⟨"B", "f", 1, 0, ["a", spreadProp]⟩, ⟨"B", "f", 2, 0, ["a"]⟩] ∧
    (Audit.run ss comp prop true).lacking = [⟨"B", "f", 2, 0, ["a"]⟩] := by
  intro usage site ss ss' ds ds' comp prop cs
  have hss : ss.map Site.unspread = ss'.map Site.unspread := by decide
  have hds : ds.map Declaration.unspread = ds'.map Declaration.unspread := by decide
  obtain ⟨hrun, _, haudit⟩ := spreads_opaque hds hss comp
  obtain ⟨hall, htrusting, _⟩ := haudit prop
  refine ⟨hss, hds, hrun cs .and true, ?_, ?_⟩
  · rw [hall]
    decide
  · rw [htrusting]
    decide

end Query

end PropAtlas
