import PropAtlas.Proofs.Query.Instances
import Mathlib.Data.Prod.Lex
import Mathlib.Data.String.Basic

/-! The instances of a component in the order in which they are reported. Declarations are kept
under a column before all others, so the order of the table is not the order of the columns that are
shown; it is the same only because a declaration never shares its line with another instance. -/

namespace PropAtlas.Query
open scoped List

/-! ### Order -/

/-- Places in the order of their files, then of their lines, then of their columns. -/
def Place.rank (p : Place) : String ×ₗ Int ×ₗ Int := toLex (p.1, toLex p.2)

theorem Place.rank_inj {a b : Place} : Place.rank a = Place.rank b ↔ a = b := Iff.rfl

theorem Place.before_iff {a b : Place} :
    Place.before a b = true ↔ Place.rank a ≤ Place.rank b := by
  obtain ⟨file, line, column⟩ := a
  obtain ⟨file', line', column'⟩ := b
  simp [Place.before, Place.rank, Prod.Lex.toLex_le_toLex]

theorem merged_sorted (ds : List Declaration) (ss : List Site) (component : Text) :
    ((merged ds ss component).mergeSort (fun a b => Place.before a.1 b.1)).Pairwise
      (fun a b => Place.rank a.1 < Place.rank b.1) := by
  have hle : ((merged ds ss component).mergeSort (fun a b => Place.before a.1 b.1)).Pairwise
      (fun a b => Place.before a.1 b.1 = true) := by
    apply List.pairwise_mergeSort
    · intro a b c hab hbc
      rw [Place.before_iff] at *
      exact le_trans hab hbc
    · intro a b
      rw [Bool.or_eq_true, Place.before_iff, Place.before_iff]
      exact le_total _ _
  have hkeys : (((merged ds ss component).mergeSort
      (fun a b => Place.before a.1 b.1)).map Prod.fst).Nodup :=
    ((List.mergeSort_perm _ _).map _).nodup_iff.mpr (nodup_keys_merged ds ss component)
  refine (hle.and (List.pairwise_map.mp hkeys)).imp ?_
  rintro a b ⟨hab, hne⟩
  exact lt_of_le_of_ne (Place.before_iff.mp hab) (fun h => hne (Place.rank_inj.mp h))

/-- Places on different lines are in order whatever their columns are. -/
theorem Place.rank_lt_of_row {file file' : String} {line line' c c' : Int}
    (h : Place.rank (file, line, c) < Place.rank (file', line', c'))
    (hrow : (file, line) ≠ (file', line')) (k k' : Int) :
    Place.rank (file, line, k) < Place.rank (file', line', k') := by
  simp only [Place.rank, Prod.Lex.toLex_lt_toLex] at h ⊢
  rcases h with h | ⟨rfl, h | ⟨rfl, _⟩⟩
  · exact Or.inl h
  · exact Or.inr ⟨rfl, Or.inl h⟩
  · exact absurd rfl hrow

/-- The order of the table is the order of what is reported: a declaration is kept under another
column than its own, but no other instance is on its line. -/
theorem rank_place_lt {ds : List Declaration} {ss : List Site} {component : Text}
    (hcol : ∀ s ∈ ss, 0 ≤ s.column) {p q : Place} {i j : Instance}
    (hi : (p, i) ∈ merged ds ss component) (hj : (q, j) ∈ merged ds ss component)
    (h : Place.rank p < Place.rank q) : Place.rank i.place < Place.rank j.place := by
  rcases (mem_merged_iff hcol).mp hi with ⟨s, hs, rfl, rfl⟩ | ⟨d, _, hd, rfl, rfl⟩
  · rcases (mem_merged_iff hcol).mp hj with ⟨t, _, rfl, rfl⟩ | ⟨e, _, he, rfl, rfl⟩
    · exact h
    · exact Place.rank_lt_of_row h (he s hs.mem) _ _
  · rcases (mem_merged_iff hcol).mp hj with ⟨t, ht, rfl, rfl⟩ | ⟨e, _, _, rfl, rfl⟩
    · exact Place.rank_lt_of_row h (fun he => hd t ht.mem he.symm) _ _
    · refine Place.rank_lt_of_row h ?_ _ _
      intro he
      obtain ⟨hf, hl⟩ := Prod.mk.inj he
      rw [declarationPlace, declarationPlace, hf, hl] at h
      exact lt_irrefl _ h

theorem instances_sorted (ds : List Declaration) (ss : List Site) (component : Text)
    (hcol : ∀ s ∈ ss, 0 ≤ s.column) :
    (instances ds ss component).Pairwise (fun i j => Place.rank i.place < Place.rank j.place) := by
  have hmem (e : Place × Instance) : e ∈ (merged ds ss component).mergeSort
      (fun a b => Place.before a.1 b.1) ↔ e ∈ merged ds ss component :=
    (List.mergeSort_perm _ _).mem_iff
  apply List.pairwise_map.mpr
  refine (merged_sorted ds ss component).imp_of_mem ?_
  intro a b ha hb hab
  exact rank_place_lt hcol ((hmem a).mp ha) ((hmem b).mp hb) hab

theorem mem_instances_iff {ds : List Declaration} {ss : List Site} {component : Text}
    (hcol : ∀ s ∈ ss, 0 ≤ s.column) {i : Instance} :
    i ∈ instances ds ss component ↔
      (∃ s, LastOf Site.place (named ss component) s ∧ i = Instance.ofSite s) ∨
      ∃ d, LastOf Declaration.row (declaring ds component) d ∧
        (∀ s ∈ named ss component, s.row ≠ d.row) ∧ i = Instance.ofDeclaration d := by
  rw [(instances_perm ds ss component).mem_iff, List.mem_map]
  constructor
  · rintro ⟨⟨p, i⟩, hm, rfl⟩
    rcases (mem_merged_iff hcol).mp hm with ⟨s, hs, _, hi⟩ | ⟨d, hd, hfree, _, hi⟩
    · exact Or.inl ⟨s, hs, hi⟩
    · exact Or.inr ⟨d, hd, hfree, hi⟩
  · rintro (⟨s, hs, rfl⟩ | ⟨d, hd, hfree, rfl⟩)
    · exact ⟨(s.place, _), (mem_merged_iff hcol).mpr (Or.inl ⟨s, hs, rfl, rfl⟩), rfl⟩
    · exact ⟨(declarationPlace d.file d.line, _),
        (mem_merged_iff hcol).mpr (Or.inr ⟨d, hd, hfree, rfl, rfl⟩), rfl⟩

/-- Two lists of instances that are in order are equal if they have the same members. -/
theorem eq_of_sorted_of_mem_iff {is js : List Instance}
    (hi : is.Pairwise (fun i j => Place.rank i.place < Place.rank j.place))
    (hj : js.Pairwise (fun i j => Place.rank i.place < Place.rank j.place))
    (h : ∀ i, i ∈ is ↔ i ∈ js) : is = js := by
  have hnodup {ks : List Instance}
      (hk : ks.Pairwise (fun i j => Place.rank i.place < Place.rank j.place)) : ks.Nodup := by
    refine hk.imp ?_
    rintro i _ hij rfl
    exact lt_irrefl _ hij
  apply List.Perm.eq_of_pairwise _ hi hj
    ((List.perm_ext_iff_of_nodup (hnodup hi) (hnodup hj)).mpr h)
  intro i j _ _ hij hji
  exact absurd hij (lt_asymm hji)

/-- The instances of a component come in the order of their places, no two at one place: for each
place of an element the last one there, and for each line of a declaration without an element the last
declaration there. Each holds the last prop of every name. The order in which elements at different
places are found makes no difference, nor does that of declarations on different lines. -/
theorem instances_merged (ds : List Declaration) (ss : List Site) (component : Text)
    (hcol : ∀ s ∈ ss, 0 ≤ s.column) :
    (instances ds ss component).Pairwise (fun i j => Place.rank i.place < Place.rank j.place) ∧
    (∀ i, i ∈ instances ds ss component ↔
      (∃ s, LastOf Site.place (named ss component) s ∧ i = Instance.ofSite s) ∨
      ∃ d, LastOf Declaration.row (declaring ds component) d ∧
        (∀ s ∈ named ss component, s.row ≠ d.row) ∧ i = Instance.ofDeclaration d) ∧
    (∀ s, (Instance.ofSite s).Holds s.props) ∧ (∀ d, (Instance.ofDeclaration d).Holds d.props) ∧
    (∀ ss', ss' ~ ss → ((named ss component).map Site.place).Nodup →
      instances ds ss' component = instances ds ss component) ∧
    ∀ ds', ds' ~ ds → ((declaring ds component).map Declaration.row).Nodup →
      instances ds' ss component = instances ds ss component := by
  refine ⟨instances_sorted ds ss component hcol, fun i => mem_instances_iff hcol, holds_ofSite,
    holds_ofDeclaration, ?_, ?_⟩
  · intro ss' hperm hplaces
    have hcol' : ∀ s ∈ ss', 0 ≤ s.column := fun s hs => hcol s (hperm.mem_iff.mp hs)
    have hnamed : named ss' component ~ named ss component := hperm.filter _
    have hplaces' : ((named ss' component).map Site.place).Nodup :=
      (hnamed.map _).nodup_iff.mpr hplaces
    apply eq_of_sorted_of_mem_iff (instances_sorted ds ss' component hcol')
      (instances_sorted ds ss component hcol)
    intro i
    rw [mem_instances_iff hcol', mem_instances_iff hcol]
    simp only [lastOf_iff_mem hplaces, lastOf_iff_mem hplaces', hnamed.mem_iff]
  · intro ds' hperm hrows
    have hdeclaring : declaring ds' component ~ declaring ds component := hperm.filter _
    have hrows' : ((declaring ds' component).map Declaration.row).Nodup :=
      (hdeclaring.map _).nodup_iff.mpr hrows
    apply eq_of_sorted_of_mem_iff (instances_sorted ds' ss component hcol)
      (instances_sorted ds ss component hcol)
    intro i
    rw [mem_instances_iff hcol, mem_instances_iff hcol]
    simp only [lastOf_iff_mem hrows, lastOf_iff_mem hrows', hdeclaring.mem_iff]

/-- Three elements, two of them on the line of a declaration, and a declaration on a line of its own
after one that it hides. The first element has a prop twice and a spread. -/
theorem instances_merged_shared_lines :
    let prop (name : String) (column : Int) (spread : Bool) : PropUsage :=
      { name, component := "B", file := "f", line := 1, column, spread }
    let twice := [prop "x" 12 false, prop "...spread" 14 true, prop "x" 22 false]
    let site (name : String) (line column : Int) (props : List PropUsage) : Site :=
      ⟨name, "B", "f", line, column, props⟩
    let declaration (line column : Int) : Declaration := ⟨"B", "f", line, column, [], none⟩
    let ss := [site "B" 1 9 twice, site "UI.B" 1 4 [], site "B" 3 0 []]
    let ds := [declaration 1 0, declaration 2 0, declaration 2 7]
    let b := Text.ofString "B"
    (∀ s ∈ ss, 0 ≤ s.column) ∧ ((named ss b).map Site.place).Nodup ∧
    ((declaring (ds.take 2) b).map Declaration.row).Nodup ∧
    Instance.ofDeclaration (declaration 2 7) ∈ instances ds ss b ∧
    (∃ i ∈ instances ds ss b, i.place = ("f", 1, 9) ∧ i.hasSpread = true ∧
      i.props.get? (Text.ofString "x") = some (prop "x" 22 false)) ∧
    instances ds ss.reverse b = instances ds ss b ∧
    instances (ds.take 2).reverse ss b = instances (ds.take 2) ss b := by
  intro prop twice site declaration ss ds b
  have hcol : ∀ s ∈ ss, 0 ≤ s.column := by decide
  have hplaces : ((named ss b).map Site.place).Nodup := by decide
  have hrows : ((declaring (ds.take 2) b).map Declaration.row).Nodup := by decide
  obtain ⟨_, hmem, hholds, _, hsites, _⟩ := instances_merged ds ss b hcol
  obtain ⟨_, _, _, _, _, hdeclarations⟩ := instances_merged (ds.take 2) ss b hcol
  have hlast : LastOf Declaration.row (declaring ds b) (declaration 2 7) :=
    ⟨ds.take 2, [], by decide, by decide⟩
  have hfirst : LastOf Site.place (named ss b) (site "B" 1 9 twice) :=
    ⟨[], ss.tail, by decide, by decide⟩
  have hprop : LastOf PropUsage.name (twice.filter (fun u => !u.spread)) (prop "x" 22 false) :=
    ⟨[prop "x" 12 false], [], rfl, nofun⟩
  have hspread := (hholds (site "B" 1 9 twice)).spread.mpr ⟨prop "...spread" 14 true, by decide, rfl⟩
  refine ⟨hcol, hplaces, hrows, (hmem _).mpr (Or.inr ⟨_, hlast, by decide, rfl⟩), ?_,
    hsites _ (List.reverse_perm _) hplaces, hdeclarations _ (List.reverse_perm _) hrows⟩
  exact ⟨_, (hmem _).mpr (Or.inl ⟨_, hfirst, rfl⟩), rfl, hspread,
    ((hholds (site "B" 1 9 twice)).props _ _).mpr ⟨hprop, rfl⟩⟩

end PropAtlas.Query
