import PropAtlas.Proofs.Table
import PropAtlas.Query.Match
import Mathlib.Data.List.Basic
import Mathlib.Data.List.Perm.Basic

/-! How the instances of a component are merged. The table of instances is described place by place:
at the place of an element stands the last element there, and at the place of a declaration the last
declaration of its line, unless an element is on that line (`mem_merged_iff`). -/

namespace PropAtlas
open scoped List

/-- Where an element stands. -/
def Site.place (s : Site) : Query.Place := (s.file, s.line, s.column)

/-- The line of an element, with its file. -/
def Site.row (s : Site) : String × Int := (s.file, s.line)

def Declaration.row (d : Declaration) : String × Int := (d.file, d.line)

namespace Query

/-- The elements that a name refers to. -/
def named (ss : List Site) (component : Text) : List Site :=
  ss.filter (fun s => s.isNamed component)

/-- The instances of a component by place. -/
def merged (ds : List Declaration) (ss : List Site) (component : Text) : Table Place Instance :=
  (named ss component).foldl addSite (declared ds component)

/-- The declarations of a component. -/
def declaring (ds : List Declaration) (component : Text) : List Declaration :=
  ds.filter (fun d => Text.ofString d.component == component)

/-- Whether an element is on a line of a file. -/
def onLine (ss : List Site) (file : String) (line : Int) : Bool :=
  ss.any (fun s => s.file == file && s.line == line)

theorem instances_perm (ds : List Declaration) (ss : List Site) (component : Text) :
    instances ds ss component ~ (merged ds ss component).map (·.2) :=
  (List.mergeSort_perm _ _).map _

/-- One element and no declaration. -/
theorem instances_singleton {s : Site} {component : Text} (h : s.isNamed component = true) :
    instances [] [s] component = [Instance.ofSite s] := by
  have hnamed : named [s] component = [s] := List.filter_cons_of_pos h
  have hmerged : merged [] [s] component = [(s.place, Instance.ofSite s)] := by
    rw [merged, hnamed]
    rfl
  change ((merged [] [s] component).mergeSort _).map (·.2) = _
  rw [hmerged, List.mergeSort_singleton]
  rfl

/-! ### Elements -/

theorem get?_addSite (t : Table Place Instance) (s : Site) (p : Place) :
    (addSite t s).get? p =
      if s.place = p then some (Instance.ofSite s)
      else if declarationPlace s.file s.line = p then none else t.get? p := by
  rw [addSite, Table.get?_put, Table.get?_drop]
  rfl

theorem nodup_keys_foldl_addSite (ss : List Site) (t : Table Place Instance)
    (ht : t.keys.Nodup) : (ss.foldl addSite t).keys.Nodup := by
  induction ss generalizing t with
  | nil => exact ht
  | cons s ss ih => exact ih _ (Table.nodup_keys_put _ _ (Table.nodup_keys_drop _ ht))

/-- At the place of an element stands the last element there. -/
theorem get?_foldl_addSite (ss : List Site) (t : Table Place Instance) (p : Place)
    (hp : p.2.2 ≠ -1) :
    (ss.foldl addSite t).get? p =
      (((ss.filter (fun s => s.place = p)).getLast?).map Instance.ofSite).or (t.get? p) := by
  induction ss generalizing t with
  | nil => simp
  | cons s ss ih =>
    -- The entry that an element drops stands at column -1, so it is not the one at `p`.
    have hd : declarationPlace s.file s.line ≠ p := by
      rintro rfl
      exact hp rfl
    rw [List.foldl_cons, ih, get?_addSite, if_neg hd]
    by_cases hs : s.place = p
    · rw [List.filter_cons_of_pos (by simpa using hs), List.getLast?_cons, if_pos hs]
      cases (ss.filter (fun s => s.place = p)).getLast? <;> rfl
    · rw [List.filter_cons_of_neg (by simpa using hs), if_neg hs]

/-- The place of a declaration is given up to the elements of its line. -/
theorem get?_foldl_addSite_declaration (ss : List Site) (t : Table Place Instance) (file : String)
    (line : Int) (hcol : ∀ s ∈ ss, 0 ≤ s.column) :
    (ss.foldl addSite t).get? (declarationPlace file line) =
      if onLine ss file line then none else t.get? (declarationPlace file line) := by
  induction ss generalizing t with
  | nil => rfl
  | cons s ss ih =>
    have hs : s.place ≠ declarationPlace file line := by
      intro h
      have hc : s.column = -1 := congrArg (·.2.2) h
      have := hcol s List.mem_cons_self
      omega
    rw [List.foldl_cons, ih _ (fun s h => hcol s (List.mem_cons_of_mem _ h)), get?_addSite,
      if_neg hs]
    by_cases hl : s.file = file ∧ s.line = line
    · simp [onLine, declarationPlace, hl.1, hl.2]
    · have hd : declarationPlace s.file s.line ≠ declarationPlace file line := by
        intro h
        exact hl ⟨congrArg (·.1) h, congrArg (·.2.1) h⟩
      have hb : (s.file == file && s.line == line) = false := by simpa using hl
      simp only [if_neg hd, onLine, List.any_cons, hb, Bool.false_or]

/-! ### Declarations -/

theorem get?_declared_of_ne (ds : List Declaration) (component : Text) (p : Place)
    (hp : p.2.2 ≠ -1) : (declared ds component).get? p = none := by
  apply Table.get?_ofList_eq_none_iff.mpr
  intro e he h
  obtain ⟨d, _, rfl⟩ := List.mem_map.mp he
  exact hp (h ▸ rfl)

/-- At the place of a declaration stands the last one of its line. -/
theorem get?_declared (ds : List Declaration) (component : Text) (file : String) (line : Int) :
    (declared ds component).get? (declarationPlace file line) =
      (((declaring ds component).filter (fun d =>
        d.file == file && d.line == line)).getLast?).map Instance.ofDeclaration := by
  rw [declared, Table.get?_ofList, List.filter_map, List.getLast?_map, Option.map_map]
  congr 2
  apply List.filter_congr
  intro d _
  rw [Bool.eq_iff_iff]
  simp [declarationPlace]

theorem nodup_keys_merged (ds : List Declaration) (ss : List Site) (component : Text) :
    (merged ds ss component).keys.Nodup :=
  nodup_keys_foldl_addSite _ _ (Table.nodup_keys_ofList _)

/-! ### The last of each place -/

/-- `x` is in a list, and nothing after it has the same key. -/
def LastOf {α κ : Type} (key : α → κ) (xs : List α) (x : α) : Prop :=
  ∃ before after, xs = before ++ x :: after ∧ ∀ y ∈ after, key y ≠ key x

section LastOf

variable {α κ : Type} [DecidableEq κ] {key : α → κ} {xs : List α} {x : α}

theorem lastOf_iff_getLast? {k : κ} :
    (xs.filter (fun y => key y = k)).getLast? = some x ↔ LastOf key xs x ∧ key x = k := by
  rw [List.getLast?_eq_some_iff]
  constructor
  · rintro ⟨ys, h⟩
    obtain ⟨l, r, rfl, _, hr⟩ := List.filter_eq_append_iff.mp h
    obtain ⟨m, after, rfl, _, hx, hafter⟩ := List.filter_eq_cons_iff.mp hr
    have hk : key x = k := by simpa using hx
    refine ⟨⟨l ++ m, after, by simp, ?_⟩, hk⟩
    intro y hy he
    exact List.filter_eq_nil_iff.mp hafter y hy (by simp [he, hk])
  · rintro ⟨⟨before, after, rfl, hafter⟩, rfl⟩
    refine ⟨before.filter (fun y => key y = key x), ?_⟩
    have hnil : after.filter (fun y => key y = key x) = [] := by
      apply List.filter_eq_nil_iff.mpr
      intro y hy
      simpa using hafter y hy
    rw [List.filter_append, List.filter_cons_of_pos (by simp), hnil]

omit [DecidableEq κ] in
theorem LastOf.mem (h : LastOf key xs x) : x ∈ xs := by
  obtain ⟨before, after, rfl, _⟩ := h
  exact List.mem_append_right _ List.mem_cons_self

omit [DecidableEq κ] in
/-- When no key is repeated, everything is the last of its key. -/
theorem lastOf_iff_mem (h : (xs.map key).Nodup) : LastOf key xs x ↔ x ∈ xs := by
  refine ⟨LastOf.mem, ?_⟩
  intro hx
  obtain ⟨before, after, rfl⟩ := List.append_of_mem hx
  refine ⟨before, after, rfl, ?_⟩
  intro y hy he
  rw [List.map_append, List.map_cons] at h
  have hcons := (List.nodup_append.mp h).2.1
  exact (List.nodup_cons.mp hcons).1 (List.mem_map.mpr ⟨y, hy, he⟩)

end LastOf

theorem onLine_eq_true_iff {ss : List Site} {file : String} {line : Int} :
    onLine ss file line = true ↔ ∃ s ∈ ss, s.row = (file, line) := by
  simp [onLine, Site.row]

theorem get?_declared_eq_some_iff {ds : List Declaration} {component : Text} {file : String} {line : Int}
    {i : Instance} :
    (declared ds component).get? (declarationPlace file line) = some i ↔
      ∃ d, LastOf Declaration.row (declaring ds component) d ∧ d.row = (file, line) ∧
        i = Instance.ofDeclaration d := by
  have hrow (d : Declaration) :
      (d.file == file && d.line == line) = decide (d.row = (file, line)) := by
    rw [Bool.eq_iff_iff]
    simp [Declaration.row]
  simp only [get?_declared, hrow, Option.map_eq_some_iff]
  constructor
  · rintro ⟨d, hd, rfl⟩
    obtain ⟨hlast, hd⟩ := lastOf_iff_getLast?.mp hd
    exact ⟨d, hlast, hd, rfl⟩
  · rintro ⟨d, hlast, hd, rfl⟩
    exact ⟨d, lastOf_iff_getLast?.mpr ⟨hlast, hd⟩, rfl⟩

/-- The merged table holds the last element of each place, and the last declaration of each line
without an element. -/
theorem mem_merged_iff {ds : List Declaration} {ss : List Site} {component : Text}
    (hcol : ∀ s ∈ ss, 0 ≤ s.column) {p : Place} {i : Instance} :
    (p, i) ∈ merged ds ss component ↔
      (∃ s, LastOf Site.place (named ss component) s ∧ s.place = p ∧ i = Instance.ofSite s) ∨
      ∃ d, LastOf Declaration.row (declaring ds component) d ∧
        (∀ s ∈ named ss component, s.row ≠ d.row) ∧ declarationPlace d.file d.line = p ∧
        i = Instance.ofDeclaration d := by
  have hnamed : ∀ s ∈ named ss component, 0 ≤ s.column :=
    fun s hs => hcol s (List.mem_of_mem_filter hs)
  rw [← Table.get?_eq_some_iff (nodup_keys_merged ds ss component), merged]
  obtain ⟨file, line, column⟩ := p
  by_cases hp : column = -1
  · -- The place of a declaration: no element stands there, since columns are not negative.
    subst hp
    have hget := get?_foldl_addSite_declaration _ (declared ds component) file line hnamed
    constructor
    · intro h
      rw [show (file, line, (-1 : Int)) = declarationPlace file line from rfl, hget] at h
      split_ifs at h with hline
      obtain ⟨d, hlast, hd, rfl⟩ := get?_declared_eq_some_iff.mp h
      obtain ⟨rfl, rfl⟩ := Prod.mk.inj hd
      refine Or.inr ⟨d, hlast, ?_, rfl, rfl⟩
      intro s hs he
      exact hline (onLine_eq_true_iff.mpr ⟨s, hs, he⟩)
    · rintro (⟨s, hs, he, _⟩ | ⟨d, hlast, hfree, he, rfl⟩)
      · have hc : s.column = -1 := congrArg (·.2.2) he
        have := hnamed s hs.mem
        omega
      · have hrow : d.row = (file, line) := congrArg (fun p : Place => (p.1, p.2.1)) he
        have hline : ¬ onLine (named ss component) file line = true := by
          rw [onLine_eq_true_iff]
          rintro ⟨s, hs, hr⟩
          exact hfree s hs (hr.trans hrow.symm)
        change Table.get? _ (declarationPlace file line) = _
        rw [hget, if_neg hline]
        exact get?_declared_eq_some_iff.mpr ⟨d, hlast, hrow, rfl⟩
  · rw [get?_foldl_addSite _ _ _ hp, get?_declared_of_ne _ _ _ hp, Option.or_none,
      Option.map_eq_some_iff]
    constructor
    · rintro ⟨s, hs, rfl⟩
      obtain ⟨hlast, he⟩ := lastOf_iff_getLast?.mp hs
      exact Or.inl ⟨s, hlast, he, rfl⟩
    · rintro (⟨s, hlast, he, rfl⟩ | ⟨d, _, _, he, _⟩)
      · exact ⟨s, lastOf_iff_getLast?.mpr ⟨hlast, he⟩, rfl⟩
      · exact absurd (congrArg (·.2.2) he).symm hp

/-! ### What instances hold -/

/-- Whether an instance holds some usages: of each name the last one, but for spreads, and whether there
is a spread. -/
structure Instance.Holds (i : Instance) (us : List PropUsage) : Prop where
  props : ∀ name u, i.props.get? name = some u ↔
    LastOf PropUsage.name (us.filter (fun u => !u.spread)) u ∧ name = Text.ofString u.name
  spread : i.hasSpread = true ↔ ∃ u ∈ us, u.spread = true

theorem get?_indexProps {us : List PropUsage} {name : Text} {u : PropUsage} :
    (indexProps us).get? name = some u ↔
      LastOf PropUsage.name (us.filter (fun u => !u.spread)) u ∧ name = Text.ofString u.name := by
  have hlast {u : PropUsage} :
      LastOf (fun v : PropUsage => Text.ofString v.name) (us.filter (fun u => !u.spread)) u ↔
        LastOf PropUsage.name (us.filter (fun u => !u.spread)) u := by
    simp only [LastOf, ne_eq, Text.ofString_inj]
  rw [indexProps, Table.get?_ofList, List.filter_map, List.getLast?_map, Option.map_map,
    Option.map_eq_some_iff]
  constructor
  · rintro ⟨v, hv, rfl⟩
    obtain ⟨hv, hname⟩ := lastOf_iff_getLast?.mp hv
    exact ⟨hlast.mp hv, hname.symm⟩
  · rintro ⟨hu, rfl⟩
    exact ⟨u, lastOf_iff_getLast?.mpr ⟨hlast.mpr hu, rfl⟩, rfl⟩

theorem holds_ofSite (s : Site) : (Instance.ofSite s).Holds s.props :=
  ⟨fun _ _ => get?_indexProps, List.any_eq_true⟩

theorem holds_ofDeclaration (d : Declaration) : (Instance.ofDeclaration d).Holds d.props :=
  ⟨fun _ _ => get?_indexProps, List.any_eq_true⟩

/-! ### What instances stem from -/

theorem mem_foldl_addSite {ss : List Site} {t : Table Place Instance} {e : Place × Instance}
    (h : e ∈ ss.foldl addSite t) : (∃ s ∈ ss, e.2 = Instance.ofSite s) ∨ e ∈ t := by
  induction ss generalizing t with
  | nil => exact Or.inr h
  | cons s ss ih =>
    rcases ih h with ⟨s', hs', he⟩ | h
    · exact Or.inl ⟨s', List.mem_cons_of_mem _ hs', he⟩
    rcases Table.mem_put h with rfl | h
    · exact Or.inl ⟨s, List.mem_cons_self, rfl⟩
    · exact Or.inr (List.mem_of_mem_filter h)

/-- An instance is that of an element or that of a declaration. -/
theorem instance_cases {ds : List Declaration} {ss : List Site} {component : Text} {i : Instance}
    (h : i ∈ instances ds ss component) :
    (∃ s ∈ named ss component, i = Instance.ofSite s) ∨
    ∃ d ∈ declaring ds component, i = Instance.ofDeclaration d := by
  obtain ⟨e, he, rfl⟩ := List.mem_map.mp ((instances_perm ds ss component).mem_iff.mp h)
  rcases mem_foldl_addSite he with hsite | hdeclared
  · exact Or.inl hsite
  · obtain ⟨d, hd, rfl⟩ := List.mem_map.mp (Table.mem_of_mem_ofList hdeclared)
    exact Or.inr ⟨d, hd, rfl⟩

/-- A match shows its instance. -/
theorem matchOf_eq_some {criteria : List Criterion} {logic : Logic} {columns : Bool} {i : Instance}
    {m : Match} (h : matchOf criteria logic columns i = some m) :
    m.file = i.file ∧ m.line = i.line ∧ m.column = (if columns then some i.column else none) ∧
      m.props = i.props.map (fun e => (e.1, valueText e.2)) ∧ m.hasSpread = i.hasSpread := by
  unfold matchOf at h
  dsimp only at h
  split at h
  · cases h
    exact ⟨rfl, rfl, rfl, rfl, rfl⟩
  · cases h

/-! ### Instances at elements -/

def Instance.place (i : Instance) : Place := (i.file, i.line, i.column)

/-- Whether one of the elements stands at a place. -/
def standsAt (ss : List Site) (p : Place) : Bool := ss.any (fun s => s.place == p)

/-- An entry of the merged table that stands where an element does is that of an element: on the line
of an element there is no declaration. -/
theorem mem_merged_standsAt {ds : List Declaration} {ss : List Site} {component : Text}
    (hcol : ∀ s ∈ ss, 0 ≤ s.column) {p : Place} {i : Instance}
    (hm : (p, i) ∈ merged ds ss component) (hat : standsAt (named ss component) i.place = true) :
    ∃ s ∈ named ss component, p = s.place ∧ i = Instance.ofSite s := by
  rcases (mem_merged_iff hcol).mp hm with ⟨s, hs, he, hi⟩ | ⟨d, _, hfree, _, rfl⟩
  · exact ⟨s, hs.mem, he.symm, hi⟩
  · obtain ⟨s, hs, he⟩ := List.any_eq_true.mp hat
    have hplace : s.place = (d.file, d.line, d.column) := eq_of_beq he
    have hrow : s.row = d.row := congrArg (fun p : Place => (p.1, p.2.1)) hplace
    exact absurd hrow (hfree s hs)

/-- When no two elements share a place, each of them has its entry. -/
theorem mem_merged_of_mem_named {ds : List Declaration} {ss : List Site} {component : Text}
    (hcol : ∀ s ∈ ss, 0 ≤ s.column) (hplaces : (ss.map Site.place).Nodup) {s : Site}
    (hs : s ∈ named ss component) : (s.place, Instance.ofSite s) ∈ merged ds ss component := by
  have hnodup : ((named ss component).map Site.place).Nodup :=
    (List.filter_sublist.map _).nodup hplaces
  exact (mem_merged_iff hcol).mpr (Or.inl ⟨s, (lastOf_iff_mem hnodup).mpr hs, rfl, rfl⟩)

/-- The instances that stand where elements do are the elements. -/
theorem instances_standsAt_perm (ds : List Declaration) (ss : List Site) (component : Text)
    (hcol : ∀ s ∈ ss, 0 ≤ s.column) (hplaces : (ss.map Site.place).Nodup) :
    (instances ds ss component).filter (fun i => standsAt (named ss component) i.place) ~
      (named ss component).map Instance.ofSite := by
  let entry (s : Site) : Place × Instance := (s.place, Instance.ofSite s)
  have hkeys : ((named ss component).map entry).Nodup := by
    apply List.Nodup.of_map Prod.fst
    rw [List.map_map]
    exact (List.filter_sublist.map _).nodup hplaces
  -- No entry of either side is repeated, so it is enough that they have the same entries.
  have hentries : (merged ds ss component).filter
      (fun e => standsAt (named ss component) e.2.place) ~ (named ss component).map entry := by
    have hmerged : (merged ds ss component).Nodup :=
      List.Nodup.of_map Prod.fst (nodup_keys_merged ds ss component)
    apply (List.perm_ext_iff_of_nodup (hmerged.filter _) hkeys).mpr
    intro ⟨p, i⟩
    rw [List.mem_filter, List.mem_map]
    constructor
    · rintro ⟨hm, hat⟩
      obtain ⟨s, hs, rfl, rfl⟩ := mem_merged_standsAt hcol hm hat
      exact ⟨s, hs, rfl⟩
    · rintro ⟨s, hs, he⟩
      cases he
      have hat : standsAt (named ss component) s.place = true :=
        List.any_eq_true.mpr ⟨s, hs, beq_self_eq_true _⟩
      exact ⟨mem_merged_of_mem_named hcol hplaces hs, hat⟩
  calc
    _ ~ ((merged ds ss component).map (·.2)).filter
        (fun i => standsAt (named ss component) i.place) := (instances_perm ds ss component).filter _
    _ = ((merged ds ss component).filter
        (fun e => standsAt (named ss component) e.2.place)).map (·.2) := List.filter_map
    _ ~ ((named ss component).map entry).map (·.2) := hentries.map _
    _ = _ := List.map_map

end Query

end PropAtlas
