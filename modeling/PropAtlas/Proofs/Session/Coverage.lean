import PropAtlas.Proofs.FileSystem.Discovery
import PropAtlas.Proofs.Query.Instances
import PropAtlas.Proofs.Session.Spellings
import Mathlib.Data.List.Dedup

/-! Which files an answer to a query counts. Matches stem from declarations and elements, while files
are counted by declarations and props. So a file is counted if it declares the component or passes a
prop to it, and matches are found in files that are not counted if none of their elements has an
attribute. -/

namespace PropAtlas

/-- Records that name one file, with all props of the declarations and elements as usages. -/
structure FileAnalysis.Whole (g : FileAnalysis) : Prop where
  file_of_declaration : ∀ d ∈ g.declarations, d.file = g.file
  file_of_site : ∀ t ∈ g.sites, t.file = g.file
  file_of_usage : ∀ u ∈ g.usages, u.file = g.file
  usages : ∀ u, u ∈ g.usages ↔
    (∃ d ∈ g.declarations, u ∈ d.props) ∨ ∃ t ∈ g.sites, u ∈ t.props

/-- Whether a declaration in a file, or a prop of an element in it, was found. -/
def Findings.Shows (r : Findings) (file : String) : Prop :=
  (∃ d ∈ r.components, d.file = file) ∨ ∃ t ∈ r.sites, t.file = file ∧ t.props ≠ []

namespace Query

/-- A match in a file that shows nothing is an element without attributes. -/
theorem bare_of_mem_run {r : Findings} {component : Text} {criteria : List Criterion}
    {logic : Logic} {columns : Bool} {m : Match}
    (hm : m ∈ run r.components r.sites component criteria logic columns)
    (hfile : ¬ r.Shows m.file) :
    (∃ t ∈ r.sites, t.isNamed component = true ∧ t.file = m.file ∧ t.line = m.line ∧ t.props = []) ∧
      m.props = [] ∧ m.hasSpread = false := by
  obtain ⟨i, hi, him⟩ := List.mem_filterMap.mp hm
  obtain ⟨hmf, hml, _, hmp, hms⟩ := matchOf_eq_some him
  rcases instance_cases hi with ⟨t, ht, rfl⟩ | ⟨d, hd, rfl⟩
  · obtain ⟨hmem, hnamed⟩ := List.mem_filter.mp ht
    have hnone : t.props = [] := by
      by_contra hsome
      exact hfile (Or.inr ⟨t, hmem, hmf.symm, hsome⟩)
    have hindex : (Instance.ofSite t).props = [] := by
      rw [Instance.ofSite, hnone]
      rfl
    have hspread : (Instance.ofSite t).hasSpread = false := by
      rw [Instance.ofSite, Site.hasSpread, hnone]
      rfl
    exact ⟨⟨t, hmem, hnamed, hmf.symm, hml.symm, hnone⟩, by rw [hmp, hindex]; rfl,
      hms.trans hspread⟩
  · exact absurd (Or.inl ⟨d, List.mem_of_mem_filter hd, hmf.symm⟩) hfile

end Query

namespace Session
open Component (Selection)

theorem Reading.whole_of_analysis {x : Reading} (hall : x.selection.prop = none) {g : FileAnalysis}
    (h : x.analysis = some g) : g.Whole := by
  obtain ⟨_, _, p, _, _, rfl⟩ := analysis_eq_some h
  exact {
    file_of_declaration := fun d hd => Component.file_of_mem_declarations hd
    file_of_site := fun t ht => Component.file_of_mem_sites ht
    file_of_usage := fun u hu => Component.file_of_mem_usages hu
    usages := fun u => Component.mem_usages_iff hall }

/-- Files are counted for the declarations and the props that they show. -/
theorem mem_files_collect_iff {os : List (Option FileAnalysis)}
    (hos : ∀ g, some g ∈ os → g.Whole) (file : String) :
    file ∈ (collect os).files ↔ (collect os).Shows file := by
  have hfound (g : FileAnalysis) (hg : g ∈ os.filterMap id) : g.Whole := by
    obtain ⟨told, htold, hid⟩ := List.mem_filterMap.mp hg
    exact hos g (hid ▸ htold)
  rw [Findings.mem_files_iff]
  apply or_congr_right'
  intro hnone
  constructor
  · rintro ⟨u, hu, rfl⟩
    obtain ⟨g, hg, hug⟩ := List.mem_flatMap.mp hu
    have hwhole := hfound g hg
    rcases (hwhole.usages u).mp hug with ⟨d, hd, _⟩ | ⟨t, ht, hut⟩
    · -- The file of the declaration is that of the usage, but it has no declaration.
      have hsame := (hwhole.file_of_declaration d hd).trans (hwhole.file_of_usage u hug).symm
      exact absurd ⟨d, List.mem_flatMap.mpr ⟨g, hg, hd⟩, hsame⟩ hnone
    · exact ⟨t, List.mem_flatMap.mpr ⟨g, hg, ht⟩,
        (hwhole.file_of_site t ht).trans (hwhole.file_of_usage u hug).symm, List.ne_nil_of_mem hut⟩
  · rintro ⟨t, ht, rfl, hprops⟩
    obtain ⟨g, hg, htg⟩ := List.mem_flatMap.mp ht
    obtain ⟨u, hu⟩ := List.exists_mem_of_ne_nil _ hprops
    have hwhole := hfound g hg
    have hug := (hwhole.usages u).mpr (Or.inr ⟨t, htg, hu⟩)
    exact ⟨u, List.mem_flatMap.mpr ⟨g, hg, hug⟩,
      (hwhole.file_of_usage u hug).trans (hwhole.file_of_site t htg).symm⟩

namespace Analyzer

/-- The analyzers that requests lead to, on hosts that may change in between. -/
inductive Reachable : Analyzer → Prop where
  | new (c : Config) : Reachable (new c)
  | ask {a : Analyzer} (ha : Reachable a) (h : Host) (q : Request) : Reachable (a.ask h q).2

theorem Reachable.recalls {a : Analyzer} (ha : a.Reachable) : Recalls (fun _ => True) a.cache := by
  induction ha with
  | new c => exact recalls_empty _ _
  | ask _ h q ih => exact recalls_ask ih (fun _ _ => trivial)

theorem Reachable.whole_of_tells {a : Analyzer} (ha : a.Reachable) {x : Reading}
    (hall : x.selection.prop = none) {g : FileAnalysis} (h : a.tells x = some g) : g.Whole := by
  cases hk : a.known x with
  | none =>
    rw [tells_of_unknown hk] at h
    exact Reading.whole_of_analysis hall h
  | some k =>
    rw [tells_of_known hk] at h
    cases h
    obtain ⟨y, _, _, ho, _, hy⟩ := exists_reading_of_known ha.recalls hk
    exact Reading.whole_of_analysis (ho ▸ hall) hy

theorem ask_query {a : Analyzer} {h : Host} {reach : Reach} {files : List String}
    (hs : h.sourceFiles (a.scope reach) reach.path = .ok files) {component criteria logic : Json}
    {question : Query.Question} (hq : Query.validate component criteria logic = .ok question)
    (y : Report.Style) :
    let r := collect (files.map (fun file =>
      a.tells ⟨h, { component := some question.component }, file⟩))
    let stuck := Query.Stuck (Query.instances r.components r.sites question.component)
      question.criteria
    (stuck → (a.ask h (.query reach component criteria logic y)).1 = .error .digits) ∧
    (¬ stuck → (a.ask h (.query reach component criteria logic y)).1 = .ok (.query question y.places
      (Query.run r.components r.sites question.component question.criteria question.logic y.columns)
      r.files.length)) := by
  intro r stuck
  obtain ⟨p, hp, rfl, hselection, hconclude⟩ := plan_query hq reach y
  rw [ask_of_files hp hs, hselection]
  exact hconclude r

/-- The files that an answer counts are those that declare the component or pass a prop to it. Matches
in other files are elements without attributes; if there are none, no more files have matches than are
counted. There is always an answer, unless a prop would have to be compared with a whole number that is
too long to write. -/
theorem query_counts_files {a : Analyzer} (ha : a.Reachable) {h : Host} {reach : Reach}
    {files : List String} (hs : h.sourceFiles (a.scope reach) reach.path = .ok files)
    {component criteria logic : Json} {question : Query.Question}
    (hq : Query.validate component criteria logic = .ok question) (y : Report.Style) :
    ∃ r ms,
      r = collect (files.map (fun file =>
        a.tells ⟨h, { component := some question.component }, file⟩)) ∧
      ms = Query.run r.components r.sites question.component question.criteria question.logic
        y.columns ∧
      (¬ Query.Stuck (Query.instances r.components r.sites question.component) question.criteria →
        (a.ask h (.query reach component criteria logic y)).1 =
          .ok (.query question y.places ms r.files.length)) ∧
      (Query.Stuck (Query.instances r.components r.sites question.component) question.criteria →
        (a.ask h (.query reach component criteria logic y)).1 = .error .digits ∧ ¬ criteria.Short) ∧
      r.files.Nodup ∧ (∀ file, file ∈ r.files ↔ r.Shows file) ∧
      (∀ m ∈ ms, m.file ∉ r.files →
        (∃ t ∈ r.sites, t.isNamed question.component = true ∧ t.file = m.file ∧ t.line = m.line ∧
          t.props = []) ∧ m.props = [] ∧ m.hasSpread = false) ∧
      ((∀ m ∈ ms, r.Shows m.file) → (ms.map (·.file)).dedup.length ≤ r.files.length) := by
  have hwhole : ∀ g, some g ∈ files.map (fun file =>
      a.tells ⟨h, { component := some question.component }, file⟩) → g.Whole := by
    intro g hg
    obtain ⟨file, _, hg⟩ := List.mem_map.mp hg
    exact ha.whole_of_tells rfl hg
  have hshows := mem_files_collect_iff hwhole
  obtain ⟨hstuck, hfree⟩ := ask_query hs hq y
  refine ⟨_, _, rfl, rfl, hfree, ?_, Findings.nodup_files _, hshows, ?_, ?_⟩
  · intro hlong
    exact ⟨hstuck hlong, fun hshort => Query.not_stuck_of_short hq hshort _ hlong⟩
  · intro m hm hfile
    exact Query.bare_of_mem_run hm (fun hshown => hfile ((hshows _).mpr hshown))
  · intro hall
    apply List.Subperm.length_le
    apply List.subperm_of_subset (List.nodup_dedup _)
    intro file hfile
    obtain ⟨m, hm, rfl⟩ := List.mem_map.mp (List.mem_dedup.mp hfile)
    exact (hshows _).mpr (hall m hm)

/-- Two files with an element each, of which the first one has an attribute. -/
def twoElements : Host where
  root := .directory [("a.tsx", .file "<A x/>;".toUTF8.toList 0),
    ("b.tsx", .file "<A/>;".toUTF8.toList 0)]

theorem sourceFiles_twoElements :
    twoElements.sourceFiles {} "/" = .ok ["/a.tsx", "/b.tsx"] := by
  have hleaves : FileSystem.leaves {} 1 twoElements.root.listing = [["a.tsx"], ["b.tsx"]] := by
    simp [FileSystem.leaves, twoElements, FileSystem.Entry.listing, FileSystem.Scope.admits]
  apply Host.sourceFiles_of_found rfl rfl hleaves
  · rw [FileSystem.extendAll_eq]
    decide
  · decide

/-- One of two files with matches is counted, and the match in the other one has no props. -/
theorem query_counts_one_of_two :
    let a := new {}
    let question : Query.Question := ⟨Text.ofString "A", [], .and⟩
    a.Reachable ∧ twoElements.sourceFiles (a.scope { path := "/" }) "/" = .ok ["/a.tsx", "/b.tsx"] ∧
    Query.validate (.string "A") (.list []) (.string "AND") = .ok question ∧
    ∃ (r : Findings) (ms : List Query.Match),
      (a.ask twoElements (.query { path := "/" } (.string "A") (.list []) (.string "AND") {})).1 =
        .ok (.query question false ms r.files.length) ∧
      r.files = ["/a.tsx"] ∧ ∀ m ∈ ms, m.file ≠ "/a.tsx" → m.props = [] ∧ m.hasSpread = false := by
  intro a question
  have hs : twoElements.sourceFiles (a.scope { path := "/" }) "/" = .ok ["/a.tsx", "/b.tsx"] :=
    sourceFiles_twoElements
  have hq : Query.validate (.string "A") (.list []) (.string "AND") = .ok question := rfl
  obtain ⟨r, ms, hr, _, hask, _, _, _, hbare, _⟩ := query_counts_files (Reachable.new {}) hs hq {}
  have hfiles : r.files = ["/a.tsx"] := by
    rw [hr]
    decide +kernel
  have hanswer := hask (fun hstuck => by simp [Query.Stuck, question] at hstuck)
  refine ⟨Reachable.new {}, hs, hq, r, ms, hanswer, hfiles, ?_⟩
  intro m hm hne
  have hnot : m.file ∉ r.files := by
    rw [hfiles]
    exact fun h => hne (List.mem_singleton.mp h)
  exact (hbare m hm hnot).2

/-- A file with a match may go uncounted: its one element has no attribute. -/
theorem query_misses_bare_element :
    ∃ question ms, ((new {}).ask twoElements
        (.query { path := "/b.tsx" } (.string "A") (.list []) (.string "AND") {})).1 =
      .ok (.query question false ms 0) ∧ ms.map (·.file) = ["/b.tsx"] := by
  let name := Text.ofString "A"
  let bare : Site := ⟨"A", "A", "/b.tsx", 1, 0, []⟩
  have hs : twoElements.sourceFiles ((new {}).scope { path := "/b.tsx" }) "/b.tsx" =
      .ok ["/b.tsx"] := by decide
  have hq : Query.validate (.string "A") (.list []) (.string "AND") = .ok ⟨name, [], .and⟩ := rfl
  have hfound : collect (["/b.tsx"].map (fun file =>
      (new {}).tells ⟨twoElements, { component := some name }, file⟩)) =
      { analyzed := 1, sites := [bare] } := by decide +kernel
  have hinstances : Query.instances [] [bare] name = [Query.Instance.ofSite bare] :=
    Query.instances_singleton (by decide)
  have hask := (ask_query hs hq {}).2 (fun hstuck => by simp [Query.Stuck] at hstuck)
  rw [hfound] at hask
  refine ⟨_, _, hask, ?_⟩
  rw [Query.run, hinstances]
  rfl

end Analyzer
end Session
end PropAtlas
