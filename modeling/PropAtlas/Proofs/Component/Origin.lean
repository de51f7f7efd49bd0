import PropAtlas.Proofs.Component.Restriction

/-! What declarations and their props are made of. From it, every record of an analysis names the file
that was analyzed, whatever the tree and the selection are. -/

namespace PropAtlas.Component
open PropAtlas.Syntax (Node)

theorem mem_of_mem_firstOfEach {u : PropUsage} {us : List PropUsage} {seen : List String}
    (h : u ∈ firstOfEach us seen) : u ∈ us := by
  induction us generalizing seen with
  | nil => exact h
  | cons v us ih =>
    rw [firstOfEach] at h
    split_ifs at h
    · exact List.mem_cons_of_mem _ (ih h)
    · rcases List.mem_cons.mp h with rfl | h
      · exact List.mem_cons_self
      · exact List.mem_cons_of_mem _ (ih h)

/-- A prop of a component, named at a node. What gathers the rest has no type; any other prop has the one
that its name has in the table. -/
def Context.propAt (ctx : Context) (component : String) (n : Node) (name : String) (rest : Bool) :
    PropUsage :=
  { ctx.usageAt n component name with
    spread := rest
    type := if rest then none else (ctx.types component).get? name }

theorem eq_propAt_of_mem_patternProps {ctx : Context} {component : String} {pattern : Node}
    {u : PropUsage} (h : u ∈ patternProps ctx component pattern) :
    ∃ n name rest, u = ctx.propAt component n name rest := by
  obtain ⟨entry, _, h⟩ := List.mem_filterMap.mp h
  obtain ⟨⟨name, rest⟩, _, h⟩ := Option.bind_eq_some_iff.mp h
  refine ⟨entry, name, rest, ?_⟩
  dsimp only at h
  by_cases hskip : (name.isEmpty || !ctx.selection.wantsProp name) = true
  · rw [if_pos hskip] at h
    cases h
  · rw [if_neg hskip] at h
    exact (Option.some.inj h).symm

theorem eq_propAt_of_mem_accessProps {ctx : Context} {component subject : String} {body : Node}
    {u : PropUsage} (h : u ∈ accessProps ctx component subject body) :
    ∃ n name rest, u = ctx.propAt component n name rest := by
  obtain ⟨n, _, h⟩ := List.mem_filterMap.mp (mem_of_mem_firstOfEach h)
  obtain ⟨name, _, h⟩ := Option.bind_eq_some_iff.mp h
  refine ⟨n, name, false, ?_⟩
  split_ifs at h
  exact (Option.some.inj h).symm

/-- Both ways to find the props of a function say the same of a prop. -/
theorem eq_propAt_of_mem_declaredProps {ctx : Context} {component : String} {function : Node}
    {u : PropUsage} (h : u ∈ declaredProps ctx component function) :
    ∃ n name rest, u = ctx.propAt component n name rest := by
  unfold declaredProps at h
  split at h
  · split at h
    · exact eq_propAt_of_mem_patternProps h
    · cases hb : function.child? .body with
      | none =>
        rw [hb] at h
        exact absurd h List.not_mem_nil
      | some body =>
        rw [hb] at h
        exact eq_propAt_of_mem_accessProps h
    · exact absurd h List.not_mem_nil
  · exact absurd h List.not_mem_nil

/-- The declaration of a component at a place by a function. -/
def declaredAt (ctx : Context) (component : String) (place function : Node) : Declaration where
  component := component
  file := ctx.file
  line := (place.location ctx.source).line
  column := (place.location ctx.source).column
  props := declaredProps ctx component function
  interface := (ctx.interfaces.get? component).map (·.name)

theorem declare_eq (ctx : Context) (component : String) (place function : Node) :
    declare ctx component place function =
      if ctx.selection.admits component then some (declaredAt ctx component place function)
      else none := by
  rw [declare]
  cases ha : ctx.selection.admits component with
  | false =>
    rw [if_pos ((ctx.selection.rejected_iff component).mpr ha)]
    rfl
  | true =>
    have hkept : ¬ ctx.selection.target?.any (· != Text.ofString component) = true := by
      rw [Selection.rejected_iff, ha]
      exact Bool.noConfusion
    rw [if_neg hkept]
    rfl

theorem eq_declaredAt_of_declare {ctx : Context} {component : String} {place function : Node}
    {d : Declaration} (h : declare ctx component place function = some d) :
    d = declaredAt ctx component place function := by
  rw [declare_eq] at h
  split_ifs at h
  exact (Option.some.inj h).symm

theorem file_of_declare {ctx : Context} {component : String} {place function : Node}
    {d : Declaration} (h : declare ctx component place function = some d) :
    d.file = ctx.file ∧ ∀ u ∈ d.props, u.file = ctx.file := by
  obtain rfl := eq_declaredAt_of_declare h
  refine ⟨rfl, ?_⟩
  intro u hu
  obtain ⟨_, _, _, rfl⟩ := eq_propAt_of_mem_declaredProps hu
  rfl

/-- A node that gives a declaration declares a component by a function. -/
theorem declare_of_visit {ctx : Context} {n : Node} {d : Declaration}
    (h : visit ctx n = some (.declaration d)) :
    ∃ component function, declare ctx component n function = some d := by
  have hsite (x : Option Site) : x.map Finding.site ≠ some (.declaration d) := by
    cases x <;> simp
  unfold visit at h
  split at h
  · obtain ⟨name, _, h⟩ := Option.bind_eq_some_iff.mp h
    exact ⟨_, n, by simpa using h⟩
  · obtain ⟨name, _, h⟩ := Option.bind_eq_some_iff.mp h
    obtain ⟨function, _, h⟩ := Option.bind_eq_some_iff.mp h
    exact ⟨_, function, by simpa using h⟩
  · obtain ⟨tag, _, h⟩ := Option.bind_eq_some_iff.mp h
    exact absurd h (hsite _)
  · exact absurd h (hsite _)
  · cases h

theorem file_of_siteOf {ctx : Context} {element tag : Node} {t : Site}
    (h : siteOf ctx element tag = some t) : t.file = ctx.file := by
  obtain ⟨⟨full, short⟩, _, h⟩ := Option.bind_eq_some_iff.mp h
  dsimp only at h
  split_ifs at h
  cases h
  rfl

section Extract

variable {s : Source} {file : String} {root : Node} {o : Selection}
  {supplied : Option (Table String PropsInterface)}

theorem file_of_mem_declarations {d : Declaration}
    (h : d ∈ (extract s file root o supplied).declarations) : d.file = file := by
  obtain ⟨f, hf, hd⟩ := List.mem_filterMap.mp h
  obtain ⟨n, _, hn⟩ := List.mem_filterMap.mp hf
  cases f with
  | declaration d' =>
    cases hd
    obtain ⟨component, function, hn⟩ := declare_of_visit hn
    exact (file_of_declare hn).1
  | site t => cases hd

theorem file_of_mem_usages {u : PropUsage} (h : u ∈ (extract s file root o supplied).usages) :
    u.file = file := by
  obtain ⟨f, hf, hu⟩ := List.mem_flatMap.mp h
  obtain ⟨n, _, hn⟩ := List.mem_filterMap.mp hf
  cases f with
  | declaration d =>
    obtain ⟨component, function, hn⟩ := declare_of_visit hn
    exact (file_of_declare hn).2 u hu
  | site t =>
    obtain ⟨tag, ht⟩ := siteOf_of_visit hn
    obtain ⟨m, hm⟩ := attribute_of_mem_siteOf ht (List.mem_of_mem_filter hu)
    obtain ⟨_, _, _, rfl⟩ := attributeUsage_eq hm
    rfl

theorem file_of_mem_sites {t : Site} (h : t ∈ (extract s file root o supplied).sites) :
    t.file = file := by
  obtain ⟨f, hf, ht⟩ := List.mem_filterMap.mp h
  obtain ⟨n, _, hn⟩ := List.mem_filterMap.mp hf
  cases f with
  | declaration d => cases ht
  | site t' =>
    cases ht
    obtain ⟨tag, htag⟩ := siteOf_of_visit hn
    exact file_of_siteOf htag

/-- Unless one prop is asked for, every prop of a declaration or a site is a usage. -/
theorem mem_usages_iff (hall : o.prop = none) {u : PropUsage} :
    u ∈ (extract s file root o supplied).usages ↔
      (∃ d ∈ (extract s file root o supplied).declarations, u ∈ d.props) ∨
      ∃ t ∈ (extract s file root o supplied).sites, u ∈ t.props := by
  constructor
  · intro h
    obtain ⟨f, hf, hu⟩ := List.mem_flatMap.mp h
    cases f with
    | declaration d => exact Or.inl ⟨d, List.mem_filterMap.mpr ⟨_, hf, rfl⟩, hu⟩
    | site t => exact Or.inr ⟨t, List.mem_filterMap.mpr ⟨_, hf, rfl⟩, List.mem_of_mem_filter hu⟩
  · rintro (⟨d, hd, hu⟩ | ⟨t, ht, hu⟩)
    · obtain ⟨f, hf, hfd⟩ := List.mem_filterMap.mp hd
      cases f with
      | declaration d' =>
        cases hfd
        exact List.mem_flatMap.mpr ⟨_, hf, hu⟩
      | site t => cases hfd
    · obtain ⟨f, hf, hft⟩ := List.mem_filterMap.mp ht
      cases f with
      | declaration d => cases hft
      | site t' =>
        cases hft
        have hwanted : o.wantsProp u.name = true := by
          rw [Selection.wantsProp_eq_admitsProp]
          exact admitsProp_of_none hall u.name
        exact List.mem_flatMap.mpr ⟨_, hf, List.mem_filter.mpr ⟨hu, hwanted⟩⟩

end Extract

end PropAtlas.Component
