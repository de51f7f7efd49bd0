import PropAtlas.Component.Extract
import Mathlib.Data.List.Basic

/-! Selecting while a tree is walked is the same as walking all of it and selecting afterwards. The
walk looks below every node, so nothing inside a rejected declaration or element is lost, and the
first access of a wanted prop is the first access of it among all. -/

namespace PropAtlas.Component
open PropAtlas.Syntax (Node)

/-! ### What a selection keeps -/

namespace Selection

/-- Whether a component of this name is asked for. -/
def admits (o : Selection) (name : String) : Bool :=
  match o.component with
  | none => true
  | some c => c == [] || Text.ofString name == c

/-- Whether a site is asked for, by its full or its local name. -/
def keepsSite (o : Selection) (t : Site) : Bool := o.admits t.component || o.admits t.localName

/-- A usage without its type when no types are asked for. -/
def typed (o : Selection) (u : PropUsage) : PropUsage :=
  { u with type := if o.types then u.type else none }

/-- Whether a prop of this name is asked for. -/
def admitsProp (o : Selection) (name : String) : Bool :=
  o.prop == none || o.prop == some (Text.ofString name)

/-- The props of a declaration that are asked for. -/
def cut (o : Selection) (us : List PropUsage) : List PropUsage :=
  (us.filter (fun u => o.admitsProp u.name)).map o.typed

def cutDeclaration (o : Selection) (d : Declaration) : Declaration :=
  { d with props := o.cut d.props, interface := if o.types then d.interface else none }

/-- What is kept of a finding. -/
def restrict (o : Selection) : Finding → Option Finding
  | .declaration d =>
    if o.admits d.component then some (.declaration (o.cutDeclaration d)) else none
  | .site t => if o.keepsSite t then some (.site t) else none

/-- The usages that are kept of a finding. The props of a site are cut down here only. -/
def usagesOf (o : Selection) : Finding → List PropUsage
  | .declaration d => if o.admits d.component then o.cut d.props else []
  | .site t => if o.keepsSite t then t.props.filter (fun u => o.admitsProp u.name) else []

theorem wantsProp_eq_admitsProp (o : Selection) : o.wantsProp = o.admitsProp := by
  funext name
  cases hp : o.prop with
  | none => simp [wantsProp, admitsProp, hp]
  | some p => simp [wantsProp, admitsProp, hp, Bool.beq_comm]

theorem admits_eq_all (o : Selection) (name : String) :
    o.admits name = o.target?.all (· == Text.ofString name) := by
  cases hc : o.component with
  | none => simp [target?, admits, hc]
  | some c =>
    by_cases he : c = []
    · simp [target?, admits, hc, he]
    · simp [target?, admits, hc, he, Bool.beq_comm, Option.filter]

theorem rejected_iff (o : Selection) (name : String) :
    o.target?.any (· != Text.ofString name) = true ↔ o.admits name = false := by
  rw [admits_eq_all]
  cases o.target? <;> simp

theorem rejectedSite_iff (o : Selection) (full short : String) :
    o.target?.any (fun t => t != Text.ofString full && t != Text.ofString short) = true ↔
      (o.admits full || o.admits short) = false := by
  rw [admits_eq_all, admits_eq_all]
  cases o.target? <;> simp

end Selection

/-- The same reading for another selection, with the interfaces only if types are asked for. -/
def Context.select (ctx : Context) (o : Selection) : Context :=
  { ctx with selection := o, interfaces := if o.types then ctx.interfaces else [] }

theorem types_select (ctx : Context) (o : Selection) (component name : String) :
    ((ctx.select o).types component).get? name =
      if o.types then (ctx.types component).get? name else none := by
  cases ht : o.types <;> simp [Context.select, Context.types, ht, Table.get?]

/-! ### Props of declarations -/

theorem admitsProp_of_none {o : Selection} (h : o.prop = none) (name : String) :
    o.admitsProp name = true := by
  simp [Selection.admitsProp, h]

theorem cut_one (o : Selection) (u : PropUsage) :
    ((some u).filter (fun u => o.admitsProp u.name)).map o.typed =
      if o.admitsProp u.name then some (o.typed u) else none := by
  cases h : o.admitsProp u.name <;> simp [Option.filter, h]

theorem patternProps_select (ctx : Context) (o : Selection) (component : String) (pattern : Node)
    (hall : ctx.selection.prop = none) :
    patternProps (ctx.select o) component pattern = o.cut (patternProps ctx component pattern) := by
  simp only [patternProps, Selection.cut, List.filter_filterMap, List.map_filterMap,
    Selection.wantsProp_eq_admitsProp]
  apply List.filterMap_congr
  intro entry _
  have hs : patternProp (ctx.select o).source entry = patternProp ctx.source entry := rfl
  rw [hs]
  cases patternProp ctx.source entry with
  | none => rfl
  | some np =>
    obtain ⟨name, rest⟩ := np
    simp only [Option.bind_eq_bind, Option.bind_some, admitsProp_of_none hall, Bool.not_true,
      Bool.or_false]
    by_cases he : name = ""
    · simp [he]
    · have hne : name.isEmpty = false := by simpa using he
      simp only [hne, Bool.false_or, Bool.false_eq_true, if_false, cut_one, types_select,
        Selection.typed]
      change (if (!o.admitsProp name) = true then none else _) =
        if o.admitsProp name = true then _ else none
      cases o.admitsProp name with
      | false => rfl
      | true => cases rest <;> cases o.types <;> rfl

/-- The first of each name is found by looking at the wanted names only. What was seen before may
differ in names that are not wanted. -/
theorem firstOfEach_filter (p : String → Bool) (us : List PropUsage) (seen seen' : List String)
    (hseen : ∀ n, p n = true → (n ∈ seen' ↔ n ∈ seen)) :
    firstOfEach (us.filter (fun u => p u.name)) seen' =
      (firstOfEach us seen).filter (fun u => p u.name) := by
  induction us generalizing seen seen' with
  | nil => rfl
  | cons u us ih =>
    by_cases hp : p u.name = true
    · rw [List.filter_cons_of_pos (by exact hp)]
      by_cases hm : u.name ∈ seen
      · have hm' : u.name ∈ seen' := (hseen _ hp).mpr hm
        simp only [firstOfEach, List.contains_iff_mem, hm, hm', if_true]
        exact ih seen seen' hseen
      · have hm' : u.name ∉ seen' := fun h => hm ((hseen _ hp).mp h)
        simp only [firstOfEach, List.contains_iff_mem, hm, hm', if_false]
        rw [List.filter_cons_of_pos (by exact hp)]
        congr 1
        apply ih
        intro n hn
        simp only [List.mem_cons, hseen n hn]
    · -- An unwanted name may be seen on one side only; no wanted name is affected by that.
      rw [List.filter_cons_of_neg (by exact hp)]
      by_cases hm : u.name ∈ seen
      · simp only [firstOfEach, List.contains_iff_mem, hm, if_true]
        exact ih seen seen' hseen
      · simp only [firstOfEach, List.contains_iff_mem, hm, if_false]
        rw [List.filter_cons_of_neg (by exact hp)]
        apply ih
        intro n hn
        have hne : n ≠ u.name := fun h => hp (h ▸ hn)
        simp only [List.mem_cons, hne, false_or, hseen n hn]

theorem firstOfEach_map (f : PropUsage → PropUsage) (hf : ∀ u, (f u).name = u.name)
    (us : List PropUsage) (seen : List String) :
    firstOfEach (us.map f) seen = (firstOfEach us seen).map f := by
  induction us generalizing seen with
  | nil => rfl
  | cons u us ih =>
    rw [List.map_cons, firstOfEach, firstOfEach, hf, ih, ih]
    split_ifs <;> rfl

theorem accessProps_select (ctx : Context) (o : Selection) (component subject : String)
    (body : Node) (hall : ctx.selection.prop = none) :
    accessProps (ctx.select o) component subject body =
      o.cut (accessProps ctx component subject body) := by
  simp only [accessProps, Selection.cut, Selection.wantsProp_eq_admitsProp]
  -- Selecting moves from behind the choice of first accesses to the single access.
  rw [← firstOfEach_filter o.admitsProp _ [] [] (fun _ _ => Iff.rfl),
    ← firstOfEach_map o.typed (fun _ => rfl), List.filter_filterMap, List.map_filterMap]
  congr 1
  apply List.filterMap_congr
  intro n _
  have hs : accessed? (ctx.select o).source subject n = accessed? ctx.source subject n := rfl
  rw [hs]
  cases accessed? ctx.source subject n with
  | none => rfl
  | some name =>
    simp only [Option.bind_eq_bind, Option.bind_some, admitsProp_of_none hall, if_true, cut_one,
      types_select]
    rfl

theorem declaredProps_select (ctx : Context) (o : Selection) (component : String) (function : Node)
    (hall : ctx.selection.prop = none) :
    declaredProps (ctx.select o) component function =
      o.cut (declaredProps ctx component function) := by
  have hs : (ctx.select o).source = ctx.source := rfl
  unfold declaredProps
  cases firstParameter function with
  | none => rfl
  | some p =>
    dsimp only
    split
    · exact patternProps_select ctx o component p hall
    · cases function.child? .body with
      | none => rfl
      | some body =>
        simp only [Option.map_some, Option.getD_some, hs]
        exact accessProps_select ctx o component _ body hall
    · rfl

/-! ### Findings -/

theorem declare_select (ctx : Context) (o : Selection) (component : String) (place function : Node)
    (hall : ctx.selection = {}) :
    (declare (ctx.select o) component place function).map Finding.declaration =
      ((declare ctx component place function).map .declaration).bind o.restrict := by
  have hw : (ctx.select o).selection = o := rfl
  have hfree : ctx.selection.target? = none := by rw [hall]; rfl
  have hprop : ctx.selection.prop = none := by rw [hall]
  simp only [declare, hw, hfree, Option.any_none, Bool.false_eq_true, if_false, Option.map_some,
    Option.bind_some, Selection.restrict]
  by_cases hr : o.admits component = true
  · have hn : ¬ o.target?.any (· != Text.ofString component) = true := by
      rw [o.rejected_iff, hr]
      exact Bool.noConfusion
    rw [if_neg hn, if_pos hr, Selection.cutDeclaration, declaredProps_select ctx o _ _ hprop]
    cases ht : o.types <;> simp [Context.select, ht, Table.get?]
  · rw [if_pos (o.rejected_iff component |>.mpr (Bool.eq_false_iff.mpr hr)), if_neg hr]
    rfl

theorem siteOf_select (ctx : Context) (o : Selection) (element tag : Node)
    (hall : ctx.selection = {}) :
    (siteOf (ctx.select o) element tag).map Finding.site =
      ((siteOf ctx element tag).map .site).bind o.restrict := by
  have hw : (ctx.select o).selection = o := rfl
  have hfree : ctx.selection.target? = none := by rw [hall]; rfl
  have hs : (ctx.select o).source = ctx.source := rfl
  have hf : (ctx.select o).file = ctx.file := rfl
  have ha : attributeUsage (ctx.select o) = attributeUsage ctx := rfl
  simp only [siteOf, hw, hfree, hs, hf, ha, Option.any_none, Bool.false_eq_true, if_false]
  cases (tag.child? .name).bind (elementNames ctx.source) with
  | none => rfl
  | some names =>
    obtain ⟨full, short⟩ := names
    simp only [Option.bind_eq_bind, Option.bind_some, Option.map_some, Selection.restrict]
    by_cases hr : (o.admits full || o.admits short) = true
    · -- The props of a kept site are the same on both sides: no selection cuts them down.
      have hn : ¬ o.target?.any
          (fun t => t != Text.ofString full && t != Text.ofString short) = true := by
        rw [o.rejectedSite_iff, hr]
        exact Bool.noConfusion
      rw [if_neg hn, Option.map_some]
      exact (if_pos hr).symm
    · rw [if_pos (o.rejectedSite_iff full short |>.mpr (Bool.eq_false_iff.mpr hr)), Option.map_none]
      exact (if_neg hr).symm

/-- What a node says under a selection is what the selection keeps of what the node says. -/
theorem visit_select (ctx : Context) (o : Selection) (n : Node) (hall : ctx.selection = {}) :
    visit (ctx.select o) n = (visit ctx n).bind o.restrict := by
  have hs : (ctx.select o).source = ctx.source := rfl
  unfold visit
  split
  · cases n.child? .name with
    | none => rfl
    | some name => exact declare_select ctx o _ n n hall
  · cases (n.child? .name).filter (fun m => m.kind == .identifier) with
    | none => rfl
    | some name =>
      simp only [Option.bind_eq_bind, Option.bind_some, hs]
      cases (n.child? .value).bind (functionOf ctx.source) with
      | none => rfl
      | some function => exact declare_select ctx o _ n function hall
  · cases n.child? .openTag with
    | none => rfl
    | some tag => exact siteOf_select ctx o n tag hall
  · exact siteOf_select ctx o n n hall
  · rfl

/-- The walk under a selection meets what the selection keeps of a walk without one. -/
theorem findings_select (ctx : Context) (o : Selection) (root : Node) (hall : ctx.selection = {}) :
    findings (ctx.select o) root = (findings ctx root).filterMap o.restrict := by
  rw [findings, findings, List.filterMap_filterMap]
  apply List.filterMap_congr
  intro n _
  exact visit_select ctx o n hall

/-! ### Analyses -/

theorem declarations_restrict (o : Selection) (found : List Finding) :
    (found.filterMap o.restrict).filterMap Finding.declaration? =
      ((found.filterMap Finding.declaration?).filter (fun d => o.admits d.component)).map
        o.cutDeclaration := by
  rw [List.filterMap_filterMap, List.filter_filterMap, List.map_filterMap]
  apply List.filterMap_congr
  intro f _
  cases f with
  | declaration d =>
    cases ha : o.admits d.component <;>
      simp [Selection.restrict, Finding.declaration?, Option.filter, ha]
  | site t => cases hk : o.keepsSite t <;> simp [Selection.restrict, Finding.declaration?, hk]

theorem sites_restrict (o : Selection) (found : List Finding) :
    (found.filterMap o.restrict).filterMap Finding.site? =
      (found.filterMap Finding.site?).filter o.keepsSite := by
  rw [List.filterMap_filterMap, List.filter_filterMap]
  apply List.filterMap_congr
  intro f _
  cases f with
  | declaration d =>
    cases ha : o.admits d.component <;> simp [Selection.restrict, Finding.site?, ha]
  | site t =>
    cases hk : o.keepsSite t <;> simp [Selection.restrict, Finding.site?, Option.filter, hk]

theorem usages_restrict (o : Selection) (found : List Finding) :
    (found.filterMap o.restrict).flatMap (Finding.usages o) = found.flatMap o.usagesOf := by
  induction found with
  | nil => rfl
  | cons f found ih =>
    rw [List.flatMap_cons, List.filterMap_cons]
    cases f with
    | declaration d =>
      cases ha : o.admits d.component
      · simpa [Selection.restrict, Selection.usagesOf, ha] using ih
      · simpa [Selection.restrict, Selection.usagesOf, Finding.usages, Selection.cutDeclaration, ha]
          using ih
    | site t =>
      cases hk : o.keepsSite t
      · simpa [Selection.restrict, Selection.usagesOf, hk] using ih
      · simpa [Selection.restrict, Selection.usagesOf, Finding.usages, hk,
          Selection.wantsProp_eq_admitsProp] using ih

theorem type_of_mem_cut {o : Selection} (ht : o.types = false) {us : List PropUsage} {u : PropUsage}
    (hu : u ∈ o.cut us) : u.type = none := by
  obtain ⟨v, _, rfl⟩ := List.mem_map.mp hu
  simp [Selection.typed, ht]

/-- An attribute says which prop it passes, with a value or as a spread, and nothing else. -/
theorem attributeUsage_eq {ctx : Context} {component : String} {n : Node} {u : PropUsage}
    (h : attributeUsage ctx component n = some u) :
    ∃ name value spread,
      u = { ctx.usageAt n component name with value := value, spread := spread } := by
  unfold attributeUsage at h
  split at h
  · split at h
    · cases h
    · cases h
      exact ⟨_, _, false, rfl⟩
  · split_ifs at h
    cases h
    exact ⟨_, none, true, rfl⟩
  · cases h

theorem attribute_of_mem_siteOf {ctx : Context} {element tag : Node} {t : Site} {u : PropUsage}
    (h : siteOf ctx element tag = some t) (hu : u ∈ t.props) :
    ∃ n, attributeUsage ctx t.component n = some u := by
  obtain ⟨⟨full, short⟩, _, h⟩ := Option.bind_eq_some_iff.mp h
  dsimp only at h
  split_ifs at h
  cases h
  obtain ⟨n, _, hn⟩ := List.mem_filterMap.mp hu
  exact ⟨n, hn⟩

/-- A node that gives a site is an element, and the site is that of one of its tags. -/
theorem siteOf_of_visit {ctx : Context} {n : Node} {t : Site} (h : visit ctx n = some (.site t)) :
    ∃ tag, siteOf ctx n tag = some t := by
  have hdecl (x : Option Declaration) : x.map Finding.declaration ≠ some (.site t) := by
    cases x <;> simp
  unfold visit at h
  split at h
  · obtain ⟨name, _, h⟩ := Option.bind_eq_some_iff.mp h
    exact absurd h (hdecl _)
  · obtain ⟨name, _, h⟩ := Option.bind_eq_some_iff.mp h
    obtain ⟨function, _, h⟩ := Option.bind_eq_some_iff.mp h
    exact absurd h (hdecl _)
  · obtain ⟨tag, _, h⟩ := Option.bind_eq_some_iff.mp h
    exact ⟨tag, by simpa using h⟩
  · exact ⟨n, by simpa using h⟩
  · cases h

/-- Only declared props have types. -/
theorem type_of_mem_site {ctx : Context} {root : Node} {t : Site} {u : PropUsage}
    (ht : t ∈ (findings ctx root).filterMap Finding.site?) (hu : u ∈ t.props) : u.type = none := by
  obtain ⟨f, hf, hft⟩ := List.mem_filterMap.mp ht
  obtain ⟨n, _, hn⟩ := List.mem_filterMap.mp hf
  cases f with
  | declaration d => cases hft
  | site t' =>
    cases hft
    obtain ⟨tag, htag⟩ := siteOf_of_visit hn
    obtain ⟨m, hm⟩ := attribute_of_mem_siteOf htag hu
    obtain ⟨_, _, _, rfl⟩ := attributeUsage_eq hm
    rfl

/-- How the analysis for a selection comes from the whole one. The findings are the declarations and
sites of the whole analysis in the order in which the walk meets them. -/
structure RestrictedTo (o : Selection) (found : List Finding) (whole part : FileAnalysis) : Prop where
  file : part.file = whole.file
  met_declarations : whole.declarations = found.filterMap Finding.declaration?
  met_sites : whole.sites = found.filterMap Finding.site?
  declarations : part.declarations =
    (whole.declarations.filter (fun d => o.admits d.component)).map o.cutDeclaration
  sites : part.sites = whole.sites.filter o.keepsSite
  usages : part.usages = found.flatMap o.usagesOf
  interfaces : part.interfaces = if o.types then whole.interfaces else []
  untyped : o.types = false →
    (∀ d ∈ part.declarations, d.interface = none ∧ ∀ u ∈ d.props, u.type = none) ∧
    (∀ t ∈ part.sites, ∀ u ∈ t.props, u.type = none) ∧ ∀ u ∈ part.usages, u.type = none

/-- The analysis for any selection is the restriction of the analysis of everything. -/
theorem extract_restricted (s : Source) (file : String) (root : Node) (o : Selection)
    (supplied : Option (Table String PropsInterface)) :
    RestrictedTo o (findings ⟨s, file, {}, (extract s file root {} supplied).interfaces⟩ root)
      (extract s file root {} supplied) (extract s file root o supplied) := by
  let ctx : Context := ⟨s, file, {}, supplied.getD (interfaces s root)⟩
  have hfound : findings (ctx.select o) root = (findings ctx root).filterMap o.restrict :=
    findings_select ctx o root rfl
  have hd : (extract s file root o supplied).declarations =
      (((findings ctx root).filterMap Finding.declaration?).filter
        (fun d => o.admits d.component)).map o.cutDeclaration := by
    rw [← declarations_restrict, ← hfound]
    rfl
  have ht : (extract s file root o supplied).sites =
      ((findings ctx root).filterMap Finding.site?).filter o.keepsSite := by
    rw [← sites_restrict, ← hfound]
    rfl
  have hu : (extract s file root o supplied).usages = (findings ctx root).flatMap o.usagesOf := by
    rw [← usages_restrict, ← hfound]
    rfl
  refine ⟨rfl, rfl, rfl, hd, ht, hu, rfl, ?_⟩
  intro htypes
  have hsites (t : Site) (hm : t ∈ (findings ctx root).filterMap Finding.site?) (u : PropUsage)
      (hu : u ∈ t.props) : u.type = none := type_of_mem_site hm hu
  refine ⟨?_, ?_, ?_⟩
  · intro d hm
    rw [hd] at hm
    obtain ⟨d', _, rfl⟩ := List.mem_map.mp hm
    exact ⟨by simp [Selection.cutDeclaration, htypes], fun u hu => type_of_mem_cut htypes hu⟩
  · intro t hm
    rw [ht] at hm
    exact hsites t (List.mem_of_mem_filter hm)
  · intro u hm
    rw [hu] at hm
    obtain ⟨f, hf, hfu⟩ := List.mem_flatMap.mp hm
    cases f with
    | declaration d =>
      simp only [Selection.usagesOf] at hfu
      split_ifs at hfu
      · exact type_of_mem_cut htypes hfu
      · cases hfu
    | site t =>
      simp only [Selection.usagesOf] at hfu
      split_ifs at hfu
      · exact hsites t (List.mem_filterMap.mpr ⟨_, hf, rfl⟩) u (List.mem_of_mem_filter hfu)
      · cases hfu

end PropAtlas.Component
