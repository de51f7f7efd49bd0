import PropAtlas.Proofs.Query.Weakening

/-!
What a match says about itself. A match shows the props of its instance, those of them that met a
criterion, and the names that were asked for in vain. Whether a criterion holds can be read off the
props that are shown, and the other two parts follow from it.

Main statement: every match of a query is consistent (`Match.Consistent`).
-/

namespace PropAtlas.Query

/-! ### Criteria on the props that are shown -/

/-- Whether a text is, or has in it, what is asked for. -/
def Operator.Accepts (o : Operator) (shown wanted : Text) : Prop :=
  (o = .equals → shown = wanted) ∧ (o = .contains → wanted <:+: shown)

instance (o : Operator) (shown wanted : Text) : Decidable (o.Accepts shown wanted) :=
  inferInstanceAs (Decidable (_ ∧ _))

/-- A criterion holds of props with given texts: the prop is there or is not, as asked for, or else it is
there with the value that is asked for. -/
structure Criterion.HoldsOf (c : Criterion) (texts : Table Text Text) : Prop where
  present : c.present = some true → c.name ∈ texts.keys
  absent : c.present = some false → c.name ∉ texts.keys
  value : c.present = none →
    ∃ t ∈ texts.get? c.name, ∀ v ∈ c.value, c.operator.Accepts t v.spelled

instance (c : Criterion) (texts : Table Text Text) : Decidable (c.HoldsOf texts) :=
  decidable_of_iff
    ((c.present = some true → c.name ∈ texts.keys) ∧ (c.present = some false → c.name ∉ texts.keys) ∧
      (c.present = none → ∃ t ∈ texts.get? c.name, ∀ v ∈ c.value, c.operator.Accepts t v.spelled))
    ⟨fun h => ⟨h.1, h.2.1, h.2.2⟩, fun h => ⟨h.present, h.absent, h.value⟩⟩

/-- A criterion fails because there is no prop of its name. -/
def Criterion.Misses (c : Criterion) (texts : Table Text Text) : Prop :=
  ¬ c.HoldsOf texts ∧ c.name ∉ texts.keys

instance (c : Criterion) (texts : Table Text Text) : Decidable (c.Misses texts) :=
  inferInstanceAs (Decidable (_ ∧ _))

/-- The parts of a match fit together, and they are what the criteria say about the props it shows. -/
structure Match.Consistent (m : Match) (cs : List Criterion) (logic : Logic) : Prop where
  nodup_props : m.props.keys.Nodup
  nodup_matching : m.matching.keys.Nodup
  /-- A prop is shown as one that met the criteria with the value that it has. -/
  value : ∀ name shown, m.matching.get? name = some shown → m.props.get? name = some shown.value
  /-- It met a criterion of its name, and every prop that met one is shown. -/
  named : ∀ name, name ∈ m.matching.keys ↔
    name ∈ m.props.keys ∧ ∃ c ∈ cs, c.name = name ∧ c.HoldsOf m.props
  /-- The names asked for in vain, in the order of the criteria and as often as they were asked for. -/
  missing : m.missing = (cs.filter (fun c => c.Misses m.props)).map (·.name)
  disjoint : ∀ name ∈ m.missing, name ∉ m.props.keys
  /-- A prop that is there is not missing if it has a value that was not asked for. -/
  mismatch : ∀ c ∈ cs, c.name ∈ m.props.keys → ¬ c.HoldsOf m.props → c.name ∉ m.missing
  and : logic = .and → m.missing = []

variable {cs : List Criterion} {logic : Logic} {columns : Bool} {i : Instance} {c : Criterion}

theorem accepts_iff {o : Operator} {shown wanted : Text} :
    o.Accepts shown wanted ↔ if o = .equals then shown = wanted else wanted <:+: shown := by
  cases o <;> simp [Operator.Accepts]

/-- The texts of the props of an instance. -/
def Instance.texts (i : Instance) : Table Text Text := i.props.mapValues valueText

theorem mem_keys_texts {name : Text} :
    name ∈ i.texts.keys ↔ ∃ u, i.props.get? name = some u := by
  rw [Instance.texts, Table.keys_mapValues, ← Table.isSome_get?_iff, Option.isSome_iff_exists]

theorem mem_get?_texts {name : Text} {t : Text} :
    t ∈ i.texts.get? name ↔ ∃ u, i.props.get? name = some u ∧ valueText u = t := by
  rw [Instance.texts, Table.get?_mapValues]
  exact Option.map_eq_some_iff

theorem metBy_absent_iff {name : Text} {v : Option Scalar} {o : Operator} :
    Criterion.metBy ⟨name, v, o, some false⟩ i = true ↔ ¬ ∃ u, i.props.get? name = some u := by
  cases hget : i.props.get? name <;> simp [Criterion.metBy, Criterion.verdict, hget]

/-- Whether an instance meets a criterion can be read off the texts of its props. -/
theorem holdsOf_iff : c.HoldsOf i.texts ↔ c.metBy i = true := by
  obtain ⟨name, value, operator, present⟩ := c
  cases present with
  | some wanted =>
    cases wanted with
    | true =>
      rw [metBy_present_iff, ← mem_keys_texts]
      exact ⟨fun h => h.present rfl, fun h => ⟨fun _ => h, nofun, nofun⟩⟩
    | false =>
      rw [metBy_absent_iff, ← mem_keys_texts]
      exact ⟨fun h => h.absent rfl, fun h => ⟨nofun, fun _ => h, nofun⟩⟩
  | none =>
    have hvalue : Criterion.HoldsOf ⟨name, value, operator, none⟩ i.texts ↔
        ∃ u, i.props.get? name = some u ∧ ∀ v ∈ value, operator.Accepts (valueText u) v.spelled := by
      constructor
      · intro h
        obtain ⟨t, ht, haccepts⟩ := h.value rfl
        obtain ⟨u, hu, rfl⟩ := mem_get?_texts.mp ht
        exact ⟨u, hu, haccepts⟩
      · rintro ⟨u, hu, haccepts⟩
        exact ⟨nofun, nofun, fun _ => ⟨_, mem_get?_texts.mpr ⟨u, hu, rfl⟩, haccepts⟩⟩
    rw [hvalue]
    cases value with
    | none => simp [metBy_name_iff]
    | some v => simp [metBy_value_iff, accepts_iff]

/-! ### What is missing -/

/-- A criterion reports its prop as missing if it fails and the prop is not there. -/
theorem missing_verdict (c : Criterion) (i : Instance) :
    (c.verdict i.props).missing = decide (c.Misses i.texts) := by
  have hmisses : c.Misses i.texts ↔ ¬ c.metBy i = true ∧ i.props.get? c.name = none := by
    rw [Criterion.Misses, holdsOf_iff, mem_keys_texts, ← Option.isSome_iff_exists,
      Option.not_isSome_iff_eq_none]
  rw [Bool.eq_iff_iff, decide_eq_true_iff, hmisses]
  obtain ⟨name, value, operator, present⟩ := c
  cases present with
  | some wanted =>
    cases wanted <;> cases hget : i.props.get? name <;> simp [Criterion.metBy, Criterion.verdict, hget]
  | none =>
    cases value <;> cases hget : i.props.get? name <;> simp [Criterion.metBy, Criterion.verdict, hget]

theorem missing_evaluate (cs : List Criterion) (logic : Logic) (columns : Bool) (i : Instance) :
    (evaluate i.props cs logic columns).missing =
      (cs.filter (fun c => c.Misses i.texts)).map (·.name) := by
  have hmissing : (evaluate i.props cs logic columns).missing =
      (cs.filter (fun c => (c.verdict i.props).missing)).map (·.name) := by
    change ((cs.map (fun c => (c.name, c.verdict i.props))).filter (·.2.missing)).map (·.1) = _
    rw [List.filter_map, List.map_map]
    rfl
  simp only [hmissing, missing_verdict]

/-! ### Matches -/

theorem missing_of_matchOf {m : Match} (h : matchOf cs logic columns i = some m) :
    m.missing = (evaluate i.props cs logic columns).missing := by
  unfold matchOf at h
  dsimp only at h
  split at h
  · cases h
    rfl
  · cases h

theorem nodup_keys_of_mem_instances {ds : List Declaration} {ss : List Site} {component : Text}
    (h : i ∈ instances ds ss component) : i.props.keys.Nodup := by
  rcases instance_cases h with ⟨s, _, rfl⟩ | ⟨d, _, rfl⟩
  · exact Table.nodup_keys_ofList _
  · exact Table.nodup_keys_ofList _

theorem nodup_keys_matching (props : Table Text PropUsage) (cs : List Criterion) (logic : Logic)
    (columns : Bool) : (evaluate props cs logic columns).matching.keys.Nodup :=
  Table.nodup_keys_ofList _

theorem get?_matching_of_matchOf {m : Match} (h : matchOf cs logic columns i = some m)
    {name : Text} {shown : Detail} : m.matching.get? name = some shown ↔
      (∃ c ∈ cs, c.name = name ∧ c.HoldsOf i.texts) ∧
        ∃ u, i.props.get? name = some u ∧ detail columns u = shown := by
  simp only [(matching_of_matchOf h).2, get?_matching_eq_some_iff, holdsOf_iff]
  rfl

/-- Every match of a query is consistent, whatever is asked for and however often. -/
theorem run_consistent (ds : List Declaration) (ss : List Site) (component : Text)
    (cs : List Criterion) (logic : Logic) (columns : Bool) :
    ∀ m ∈ run ds ss component cs logic columns, m.Consistent cs logic := by
  intro m hm
  obtain ⟨i, hi, him⟩ := List.mem_filterMap.mp hm
  have hprops : m.props = i.texts := (matchOf_eq_some him).2.2.2.1
  have hmissing : m.missing = (cs.filter (fun c => c.Misses m.props)).map (·.name) := by
    rw [missing_of_matchOf him, missing_evaluate, hprops]
  have habsent : ∀ name ∈ m.missing, name ∉ m.props.keys := by
    intro name hname
    rw [hmissing] at hname
    obtain ⟨c, hc, rfl⟩ := List.mem_map.mp hname
    exact (of_decide_eq_true (List.mem_filter.mp hc).2).2
  refine ⟨?_, ?_, ?_, ?_, hmissing, habsent, ?_, ?_⟩
  · rw [hprops, Instance.texts, Table.keys_mapValues]
    exact nodup_keys_of_mem_instances hi
  · rw [(matching_of_matchOf him).2]
    exact nodup_keys_matching _ _ _ _
  · intro name shown hshown
    obtain ⟨_, u, hu, rfl⟩ := (get?_matching_of_matchOf him).mp hshown
    rw [hprops]
    exact mem_get?_texts.mpr ⟨u, hu, rfl⟩
  · intro name
    rw [← Table.isSome_get?_iff, Option.isSome_iff_exists, hprops, mem_keys_texts]
    simp only [get?_matching_of_matchOf him]
    constructor
    · rintro ⟨_, hmet, u, hu, _⟩
      exact ⟨⟨u, hu⟩, hmet⟩
    · rintro ⟨⟨u, hu⟩, hmet⟩
      exact ⟨_, hmet, u, hu, rfl⟩
  · intro c _ hpresent _ hc
    exact habsent c.name hc hpresent
  · rintro rfl
    -- Under AND an instance is reported only if it meets every criterion.
    have hall : ∀ c ∈ cs, c.metBy i = true := by
      rw [← holds_and_iff, ← isSome_matchOf cs .and columns, him]
      rfl
    rw [hmissing, hprops, List.map_eq_nil_iff, List.filter_eq_nil_iff]
    intro c hc hmisses
    exact (of_decide_eq_true hmisses).1 (holdsOf_iff.mpr (hall c hc))

/-- An element with two values for one prop and criteria that contradict each other: the last value counts,
and a name that is asked for twice in vain is missing twice. -/
theorem run_consistent_contradictory :
    let usage (name value : String) : PropUsage :=
      ⟨name, "B", "f", 1, 0, some (Text.ofString value), false, none⟩
    let site : Site := ⟨"B", "B", "f", 1, 0, [usage "size" "12", usage "kind" "big", usage "size" "31"]⟩
    let asks (name : Text) (value : String) : Criterion :=
      ⟨name, some (.text (Text.ofString value)), .equals, none⟩
    let b := Text.ofString "B"
    let size := Text.ofString "size"
    let kind := Text.ofString "kind"
    let id := Text.ofString "id"
    let cs : List Criterion := [asks size "12", asks id "x", asks size "31",
      ⟨id, none, .equals, some true⟩, ⟨kind, none, .equals, some false⟩]
    ∃ m, run [] [site] b cs .or true = [m] ∧ m.Consistent cs .or ∧ m.matching.keys = [size] ∧
      m.missing = [id, id] ∧ m.props.keys = [size, kind] := by
  intro usage site asks b size kind id cs
  have hinstances : instances [] [site] b = [Instance.ofSite site] := instances_singleton (by decide)
  have hmatch : (matchOf cs .or true (Instance.ofSite site)).map
      (fun m => (m.matching.keys, m.missing, m.props.keys)) =
      some ([size], [id, id], [size, kind]) := by decide
  obtain ⟨m, hm, hparts⟩ := Option.map_eq_some_iff.mp hmatch
  obtain ⟨hmatching, hmissing, hprops⟩ : _ ∧ _ ∧ _ := by simpa using hparts
  have hrun : run [] [site] b cs .or true = [m] := by
    rw [run, hinstances, List.filterMap_cons_some hm, List.filterMap_nil]
  have hmem : m ∈ run [] [site] b cs .or true := hrun ▸ List.mem_singleton_self m
  exact ⟨m, hrun, run_consistent [] [site] b cs .or true m hmem, hmatching, hmissing, hprops⟩

end PropAtlas.Query
