import PropAtlas.Proofs.Component.Restriction
import PropAtlas.Proofs.Session.Locality

/-! Asking where one prop is used. The answer is the part of the whole report that names the prop:
each prop is tested where it is met, while files, declarations and elements are found as before. The
empty name is not taken for the name of a prop that no file has. It asks for every prop. -/

namespace PropAtlas

/-! ### The part about one prop -/

def Declaration.narrow (prop : Text) (d : Declaration) : Declaration :=
  { d with props := d.props.filter (fun u => Text.ofString u.name == prop) }

/-- What an analysis says about one prop. Elements keep all of their props. -/
def FileAnalysis.narrow (prop : Text) (f : FileAnalysis) : FileAnalysis :=
  { f with
    declarations := f.declarations.map (Declaration.narrow prop)
    usages := f.usages.filter (fun u => Text.ofString u.name == prop) }

def Findings.narrow (prop : Text) (r : Findings) : Findings :=
  { r with
    components := r.components.map (Declaration.narrow prop)
    usages := r.usages.filter (fun u => Text.ofString u.name == prop) }

namespace Component
open PropAtlas.Syntax (Node)

section

variable {o : Selection} (hall : o.prop = none) (prop : Text)

theorem admitsProp_some (name : String) :
    { o with prop := some prop }.admitsProp name = (Text.ofString name == prop) := by
  simp [Selection.admitsProp, Bool.beq_comm]

include hall

theorem filter_admitsProp (us : List PropUsage) : us.filter (fun u => o.admitsProp u.name) = us :=
  List.filter_eq_self.mpr (fun u _ => admitsProp_of_none hall u.name)

theorem cut_prop (us : List PropUsage) :
    { o with prop := some prop }.cut us = (o.cut us).filter (fun u => Text.ofString u.name == prop) := by
  simp only [Selection.cut, admitsProp_some, admitsProp_of_none hall, List.filter_true, List.filter_map]
  rfl

theorem cutDeclaration_prop (d : Declaration) :
    { o with prop := some prop }.cutDeclaration d = (o.cutDeclaration d).narrow prop := by
  rw [Selection.cutDeclaration, cut_prop hall]
  rfl

theorem usagesOf_prop (f : Finding) :
    { o with prop := some prop }.usagesOf f =
      (o.usagesOf f).filter (fun u => Text.ofString u.name == prop) := by
  cases f with
  | declaration d =>
    change (if o.admits d.component then { o with prop := some prop }.cut d.props else []) = _
    rw [Selection.usagesOf, cut_prop hall]
    split_ifs <;> rfl
  | site t =>
    simp only [Selection.usagesOf, admitsProp_some]
    change (if o.keepsSite t then t.props.filter (fun u => Text.ofString u.name == prop) else []) = _
    rw [filter_admitsProp hall]
    split_ifs <;> rfl

/-- The analysis for one prop is the part of the analysis for all props that names it. -/
theorem extract_prop (s : Source) (file : String) (root : Node)
    (supplied : Option (Table String PropsInterface)) :
    extract s file root { o with prop := some prop } supplied =
      (extract s file root o supplied).narrow prop := by
  -- Both are cut out of what a walk without a selection meets.
  let ctx : Context := ⟨s, file, {}, supplied.getD (interfaces s root)⟩
  have hfound (o : Selection) : extract s file root o supplied =
      { file
        declarations := (((findings ctx root).filterMap Finding.declaration?).filter
          (fun d => o.admits d.component)).map o.cutDeclaration
        usages := (findings ctx root).flatMap o.usagesOf
        sites := ((findings ctx root).filterMap Finding.site?).filter o.keepsSite
        interfaces := if o.types then ctx.interfaces else [] } := by
    rw [← declarations_restrict, ← usages_restrict, ← sites_restrict,
      ← findings_select ctx o root rfl]
    rfl
  rw [hfound, hfound, FileAnalysis.narrow]
  congr 1
  · rw [List.map_map]
    apply List.map_congr_left
    intro d _
    exact cutDeclaration_prop hall prop d
  · rw [List.filter_flatMap]
    congr 1
    funext f
    exact usagesOf_prop hall prop f

end

end Component

namespace Session
open Component (Selection)

theorem analyzeFile_prop (h : Host) {o : Selection} (hall : o.prop = none) (prop : Text)
    (file : String) :
    analyzeFile h { o with prop := some prop } file =
      (analyzeFile h o file).map (FileAnalysis.narrow prop) := by
  unfold analyzeFile
  split
  · rename_i bytes _ _
    cases SourceFile.read file bytes with
    | error e => rfl
    | ok p => exact congrArg some (Component.extract_prop hall prop _ _ _ _)
  · rfl

theorem collect_narrow (prop : Text) (os : List (Option FileAnalysis)) :
    collect (os.map (Option.map (FileAnalysis.narrow prop))) = (collect os).narrow prop := by
  have hfound : (os.map (Option.map (FileAnalysis.narrow prop))).filterMap id =
      (os.filterMap id).map (FileAnalysis.narrow prop) := by
    rw [List.filterMap_map, List.map_filterMap]
    rfl
  have hskipped : ((os.map (Option.map (FileAnalysis.narrow prop))).filter Option.isNone).length =
      (os.filter Option.isNone).length := by
    rw [List.filter_map, List.length_map]
    congr 2
    funext o
    exact Option.isNone_map
  rw [collect, hfound, hskipped, List.length_map, List.flatMap_map, List.flatMap_map,
    List.flatMap_map, collect, Findings.narrow, List.map_flatMap, List.filter_flatMap]
  rfl

end Session

/-! ### Reports -/

/-- A number in the summary of a report. -/
def Json.total? (report : Json) (name : String) : Option Json :=
  (report.field? "summary").bind (fun summary => summary.field? name)

namespace Report

/-- Whether an entry of a report is about a prop. -/
def isAbout (prop : Text) (entry : Json) : Bool :=
  match entry.field? "prop_name" with
  | some (.text t) => t == prop
  | _ => false

/-- A full report that lists, in the same order, the usages of one prop among those that another one
lists, with the same numbers of files and of declarations. -/
structure Narrows (prop : Text) (whole one : Json) : Prop where
  usages : ∃ entries, whole.field? "prop_usages" = some (.list entries) ∧
    one.field? "prop_usages" = some (.list (entries.filter (isAbout prop)))
  totals : ∀ name ∈ ["total_files", "skipped_files", "total_components"],
    ∃ n, whole.total? name = some (.nat n) ∧ one.total? name = some (.nat n)

theorem isAbout_usage (prop : Text) (columns : Bool) (u : PropUsage) (more : List (String × Json)) :
    isAbout prop (.record (usage columns u ++ more)) = (Text.ofString u.name == prop) := rfl

theorem narrows_full (prop : Text) (y : Style) (r : Findings) :
    Narrows prop (.record (full y r)) (.record (full y (r.narrow prop))) where
  usages := by
    refine ⟨_, rfl, ?_⟩
    rw [List.filter_map]
    have hkeep : isAbout prop ∘ (fun u : PropUsage =>
        Json.record (usage y.columns u ++ y.placeField u.file (some u.line) (some u.column))) =
        fun u => Text.ofString u.name == prop := by
      funext u
      exact isAbout_usage prop y.columns u _
    rw [hkeep]
    rfl
  totals := by
    have hcount : (r.narrow prop).components.length = r.components.length := List.length_map _
    intro name hname
    simp only [List.mem_cons, List.not_mem_nil, or_false] at hname
    rcases hname with rfl | rfl | rfl
    · exact ⟨r.analyzed, rfl, rfl⟩
    · exact ⟨r.skipped, rfl, rfl⟩
    · refine ⟨r.components.length, rfl, ?_⟩
      rw [← hcount]
      rfl

end Report

/-! ### Requests -/

namespace Session
open Component (Selection)

namespace Analyzer

theorem truthful_new (c : Config) (h : Host) (q : Request) : (new c).Truthful h q :=
  fun x _ => tells_new c x

theorem selection_of_mem_readings {a : Analyzer} {h : Host} {q : Request} {p : Plan}
    (hp : plan q = .ok p) {x : Reading} (hx : x ∈ a.readings h q) : x.selection = p.selection := by
  rcases a.request_cases h q with ⟨hnil, _⟩ | ⟨p', hp', hall, _⟩
  · rw [hnil] at hx
    exact absurd hx List.not_mem_nil
  · cases hp.symm.trans hp'
    exact (hall x hx).2

/-- What was remembered for one selection is not told for another. -/
theorem truthful_after_other (c : Config) (h : Host) {q q' : Request} {p p' : Plan}
    (hp : plan q = .ok p) (hp' : plan q' = .ok p') (hne : p.selection ≠ p'.selection) :
    ((new c).ask h q).2.Truthful h q' := by
  have hr : Recalls (fun x => x ∈ (new c).readings h q) ((new c).ask h q).2.cache :=
    recalls_ask (recalls_empty _ _) (fun _ hx => hx)
  intro x hx
  cases hk : ((new c).ask h q).2.known x with
  | none => exact tells_of_unknown hk
  | some f =>
    obtain ⟨z, hz, _, ho, _⟩ := exists_reading_of_known hr hk
    have hsame : p.selection = p'.selection := by
      rw [← selection_of_mem_readings hp hz, ho, selection_of_mem_readings hp' hx]
    exact absurd hsame hne

end Analyzer

/-- How the answer about one prop comes from the answer about all of them, for the files that were
found below a directory. -/
inductive Selects (prop : Text) (directory : String) (y : Report.Style) :
    Except FileSystem.SearchFault (List String) → Except Fault Answer → Except Fault Answer → Prop where
  /-- Both fail if the directory cannot be looked at. -/
  | unreached (e : FileSystem.SearchFault) :
    Selects prop directory y (.error e) (.error (.ofSearch directory e))
      (.error (.ofSearch directory e))
  | one (files : List String) (r : Findings) (hprop : prop ≠ [])
      (hreport : Report.Narrows prop (Answer.findings .full y r).toJson
        (Answer.findings .full y (r.narrow prop)).toJson) :
    Selects prop directory y (.ok files) (.ok (.findings .full y r))
      (.ok (.findings .full y (r.narrow prop)))
  /-- The empty name is not looked for. -/
  | all (files : List String) (r : Findings) (hprop : prop = []) :
    Selects prop directory y (.ok files) (.ok (.findings .full y r)) (.ok (.findings .full y r))

namespace Analyzer

theorem selecting_of_ne {prop : Text} (hne : prop ≠ []) : selecting (some prop) = some prop := by
  have hempty : prop.isEmpty = false := List.isEmpty_eq_false_iff.mpr hne
  simp [selecting, Option.filter, hempty]

theorem selects_of_truthful {a b : Analyzer} (hc : b.config = a.config) {h : Host}
    {prop : Text} {directory : String} {component : Option Text} {y : Report.Style}
    (ha : a.Truthful h (.analyze { path := directory } { component } (.string "full") y))
    (hb : b.Truthful h (.usage prop directory component (.string "full") y)) :
    Selects prop directory y (h.sourceFiles (a.scope { path := directory }) directory)
      (a.ask h (.analyze { path := directory } { component } (.string "full") y)).1
      (b.ask h (.usage prop directory component (.string "full") y)).1 := by
  have hscope : b.scope { path := directory } = a.scope { path := directory } := by
    rw [scope, scope, hc]
  cases hs : h.sourceFiles (a.scope { path := directory }) directory with
  | error e =>
    rw [a.ask_full_of_error hs, Request.usage, b.ask_full_of_error (hscope ▸ hs)]
    exact .unreached e
  | ok files =>
    rw [ask_full_of_truthful ha hs, Request.usage, ask_full_of_truthful hb (hscope ▸ hs)]
    by_cases hprop : prop = []
    · rw [hprop]
      exact .all files _ rfl
    · dsimp only
      rw [selecting_of_ne hprop]
      have hfile : analyzeFile h ⟨selecting component, some prop, true⟩ =
          Option.map (FileAnalysis.narrow prop) ∘ analyzeFile h ⟨selecting component, none, true⟩ := by
        funext file
        have hall : (⟨selecting component, none, true⟩ : Selection).prop = none := rfl
        exact analyzeFile_prop h hall prop file
      rw [hfile, ← List.map_map, collect_narrow]
      exact .one files _ hprop (Report.narrows_full prop y _)

end Analyzer

/-- The answer about a prop is the part of the answer about all props that names it, and the whole
answer if the name is empty. This holds of a new analyzer, of one that has answered the other request
before, and whenever what is told is what the files say. -/
theorem usage_selects (c : Config) (h : Host) (prop : Text) (directory : String)
    (component : Option Text) (y : Report.Style) :
    let whole : Request := .analyze { path := directory } { component } (.string "full") y
    let one : Request := .usage prop directory component (.string "full") y
    let fresh := Analyzer.new c
    let found := h.sourceFiles (fresh.scope { path := directory }) directory
    Selects prop directory y found (fresh.ask h whole).1 (fresh.ask h one).1 ∧
    (prop ≠ [] →
      Selects prop directory y found (fresh.ask h whole).1 ((fresh.ask h whole).2.ask h one).1 ∧
      Selects prop directory y found ((fresh.ask h one).2.ask h whole).1 (fresh.ask h one).1) ∧
    ∀ a b : Analyzer, a.config = c → b.config = c → a.Truthful h whole → b.Truthful h one →
      Selects prop directory y found (a.ask h whole).1 (b.ask h one).1 := by
  intro whole one fresh found
  have htold (a b : Analyzer) (ha : a.config = c) (hb : b.config = c) (hwhole : a.Truthful h whole)
      (hone : b.Truthful h one) :
      Selects prop directory y found (a.ask h whole).1 (b.ask h one).1 := by
    have hscope : fresh.scope { path := directory } = a.scope { path := directory } := by
      rw [Analyzer.scope, Analyzer.scope, ha]
      rfl
    have hfound : found = h.sourceFiles (a.scope { path := directory }) directory := by
      rw [← hscope]
    rw [hfound]
    exact Analyzer.selects_of_truthful (hb.trans ha.symm) hwhole hone
  have hwhole : fresh.Truthful h whole := Analyzer.truthful_new c h whole
  have hone : fresh.Truthful h one := Analyzer.truthful_new c h one
  refine ⟨htold fresh fresh rfl rfl hwhole hone, ?_, htold⟩
  intro hprop
  -- The two requests are kept apart in the cache: one is for a prop and the other is not.
  have hselection : (⟨Analyzer.selecting component, none, true⟩ : Selection) ≠
      ⟨Analyzer.selecting component, Analyzer.selecting (some prop), true⟩ := by
    rw [Analyzer.selecting_of_ne hprop]
    intro hsame
    cases (Selection.mk.inj hsame).2.1
  constructor
  · exact htold fresh _ rfl (fresh.config_ask h whole) hwhole
      (Analyzer.truthful_after_other c h rfl rfl hselection)
  · exact htold _ fresh (fresh.config_ask h one) rfl
      (Analyzer.truthful_after_other c h rfl rfl hselection.symm) hone

/-- Of three files one cannot be read and one passes the prop. The analyzer has been asked for
everything before. -/
theorem usage_selects_trio :
    let h := Analyzer.trio [0]
    let whole : Request := .analyze { path := "/" } {} (.string "full") {}
    let one : Request := .usage (Text.ofString "y") "/" none (.string "full") {}
    let a := Analyzer.new {}
    let b := (a.ask h whole).2
    a.Truthful h whole ∧ b.Truthful h one ∧ b.config = a.config ∧
    ∃ r, (a.ask h whole).1 = .ok (.findings .full {} r) ∧
      (b.ask h one).1 = .ok (.findings .full {} (r.narrow (Text.ofString "y"))) ∧
      r.usages.map (fun u => u.name) = ["x", "y"] ∧ r.analyzed = 2 ∧ r.skipped = 1 := by
  intro h whole one a b
  have hwhole : a.Truthful h whole := Analyzer.truthful_new {} h whole
  have hone : b.Truthful h one := by
    apply Analyzer.truthful_after_other {} h rfl rfl
    decide
  have hconfig : b.config = a.config := a.config_ask h whole
  have hfound : h.sourceFiles (a.scope { path := "/" }) "/" = .ok ["/a.tsx", "/b.tsx", "/c.tsx"] :=
    Analyzer.sourceFiles_trio [0]
  obtain ⟨_, _, htold⟩ := usage_selects {} h (Text.ofString "y") "/" none {}
  have hselects := htold a b rfl hconfig hwhole hone
  refine ⟨hwhole, hone, hconfig, _, Analyzer.ask_full_of_truthful hwhole hfound, ?_, ?_⟩
  · change Selects (Text.ofString "y") "/" {} (h.sourceFiles (a.scope { path := "/" }) "/") (a.ask h whole).1
      (b.ask h one).1 at hselects
    rw [hfound, Analyzer.ask_full_of_truthful hwhole hfound] at hselects
    generalize (b.ask h one).1 = answer at hselects ⊢
    cases hselects with
    | one => rfl
    | all _ _ hprop => exact absurd hprop (by decide)
  · decide +kernel

/-- A request for the usages of the prop without a name is answered by all usages, though none of
them is of a prop without a name. -/
theorem usage_unnamed_not_narrows :
    let h := Analyzer.trio "<B z/>;".toUTF8.toList
    let whole : Request := .analyze { path := "/" } {} (.string "full") {}
    let one : Request := .usage [] "/" none (.string "full") {}
    ∃ r s, ((Analyzer.new {}).ask h whole).1 = .ok (.findings .full {} r) ∧
      ((Analyzer.new {}).ask h one).1 = .ok (.findings .full {} s) ∧
      s.usages.map (fun u => u.name) = ["x", "z", "y"] ∧
      ¬ Report.Narrows [] (Answer.findings .full {} r).toJson (Answer.findings .full {} s).toJson := by
  intro h whole one
  have hfound : h.sourceFiles ((Analyzer.new {}).scope { path := "/" }) "/" =
      .ok ["/a.tsx", "/b.tsx", "/c.tsx"] := Analyzer.sourceFiles_trio _
  let r := collect (["/a.tsx", "/b.tsx", "/c.tsx"].map (analyzeFile h {}))
  have hnames : r.usages.map (fun u => u.name) = ["x", "z", "y"] := by decide +kernel
  refine ⟨r, r, Analyzer.ask_full_of_truthful (Analyzer.truthful_new {} h whole) hfound,
    Analyzer.ask_full_of_truthful (Analyzer.truthful_new {} h one) hfound, hnames, ?_⟩
  have hnone : (r.narrow []).usages = [] := by
    apply List.filter_eq_nil_iff.mpr
    intro u hu hempty
    have hmem : u.name ∈ ["x", "z", "y"] := hnames ▸ List.mem_map_of_mem hu
    have hname : Text.ofString u.name = Text.ofString "" := eq_of_beq hempty
    rw [Text.ofString_inj.mp hname] at hmem
    exact absurd hmem (by decide)
  rintro ⟨⟨entries, hentries, hkept⟩, _⟩
  -- The report that does narrow lists no usage at all, and this one would have to list the same.
  obtain ⟨entries', hentries', hkept'⟩ := (Report.narrows_full [] {} r).usages
  have hsame : entries = entries' := Json.list.inj (Option.some.inj (hentries.symm.trans hentries'))
  have hlists := Json.list.inj (Option.some.inj (hkept.trans (hsame ▸ hkept'.symm)))
  rw [hnone, List.map_nil, List.map_eq_nil_iff] at hlists
  rw [hlists] at hnames
  cases hnames

end Session

end PropAtlas
