import PropAtlas.Proofs.FileSystem.Discovery
import PropAtlas.Proofs.Session.Confinement
import PropAtlas.Proofs.Session.Spellings

/-! One file among others. Without a cache, a report is put together from what each file says by
itself, in the order of the paths. So the bytes of a file show in the records of that file only, which
stand together at the place of its path, and a file that cannot be read leaves that place empty. -/

namespace PropAtlas

/-- The host with nothing in its files. -/
def Host.bare (h : Host) : Host := h.recast (fun _ _ => ([], 0))

/-- Hosts that are alike but for what is in the file at one place. -/
structure Host.AlikeBut (place : List String) (h h' : Host) : Prop where
  bare : h.bare = h'.bare
  content : ∀ p, p ≠ place → h.root.contentAt p = h'.root.contentAt p

namespace Host.AlikeBut

variable {place : List String} {h h' : Host}

theorem locate (hd : AlikeBut place h h') (path : String) : h.locate path = h'.locate path :=
  calc
    h.locate path = h.bare.locate path := (h.locate_recast _ path).symm
    _ = h'.bare.locate path := by rw [hd.bare]
    _ = h'.locate path := h'.locate_recast _ path

theorem sourceFiles (hd : AlikeBut place h h') (o : FileSystem.Scope) (path : String) :
    h.sourceFiles o path = h'.sourceFiles o path :=
  calc
    h.sourceFiles o path = h.bare.sourceFiles o path := (h.sourceFiles_recast _ o path).symm
    _ = h'.bare.sourceFiles o path := by rw [hd.bare]
    _ = h'.sourceFiles o path := h'.sourceFiles_recast _ o path

end Host.AlikeBut

namespace Findings

/-- The findings of some files and then of others. -/
def append (r s : Findings) : Findings where
  analyzed := r.analyzed + s.analyzed
  skipped := r.skipped + s.skipped
  components := r.components ++ s.components
  usages := r.usages ++ s.usages
  sites := r.sites ++ s.sites

instance : Append Findings := ⟨append⟩

/-- Whether every record names a file with a property. -/
def About (r : Findings) (p : String → Prop) : Prop :=
  (∀ d ∈ r.components, p d.file) ∧ ∀ u ∈ r.usages, p u.file

end Findings

theorem eq_filter_append_filter_not {α : Type} {p : α → Bool} {l : List α}
    (hp : l.Pairwise (fun a b => p b = true → p a = true)) :
    l = l.filter p ++ l.filter (fun a => !p a) := by
  induction l with
  | nil => rfl
  | cons x xs ih =>
    obtain ⟨hx, hxs⟩ := List.pairwise_cons.mp hp
    by_cases hpx : p x = true
    · rw [List.filter_cons_of_pos hpx, List.filter_cons_of_neg (by simp [hpx]), List.cons_append]
      exact congrArg (x :: ·) (ih hxs)
    · -- Nothing after `x` has the property, since `x` does not.
      have hall : ∀ y ∈ x :: xs, p y = false := by
        intro y hy
        rcases List.mem_cons.mp hy with rfl | hy
        · exact Bool.eq_false_of_not_eq_true hpx
        · exact Bool.eq_false_of_not_eq_true (fun hpy => hpx (hx y hy hpy))
      have hnone : (x :: xs).filter p = [] := by
        apply List.filter_eq_nil_iff.mpr
        intro y hy
        rw [hall y hy]
        exact Bool.false_ne_true
      have hevery : (x :: xs).filter (fun a => !p a) = x :: xs := by
        apply List.filter_eq_self.mpr
        intro y hy
        rw [hall y hy]
        rfl
      rw [hnone, hevery, List.nil_append]

/-- Sorted paths are those before a path, that path as often as it is there, and those after it. -/
theorem eq_append_of_sorted {files : List String} (hs : files.Pairwise (· ≤ ·)) (f : String) :
    files = files.filter (· < f) ++ (files.filter (· = f) ++ files.filter (f < ·)) := by
  let late := files.filter (fun x => !decide (x < f))
  have hlate : ∀ x ∈ late, f ≤ x := by
    intro x hx
    have hnot := (List.mem_filter.mp hx).2
    apply le_of_not_gt
    intro hlt
    rw [decide_eq_true hlt] at hnot
    cases hnot
  have hfirst : files = files.filter (· < f) ++ late := by
    apply eq_filter_append_filter_not
    refine hs.imp ?_
    intro a b hab hb
    exact decide_eq_true (lt_of_le_of_lt hab (of_decide_eq_true hb))
  have hsecond : late = late.filter (· = f) ++ late.filter (fun x => !decide (x = f)) := by
    apply eq_filter_append_filter_not
    refine (hs.filter _).imp_of_mem ?_
    intro a b ha _ hab hb
    have hbf : b = f := of_decide_eq_true hb
    exact decide_eq_true (le_antisymm (hbf ▸ hab) (hlate a ha))
  have hsame : late.filter (· = f) = files.filter (· = f) := by
    rw [List.filter_filter]
    apply List.filter_congr
    intro x _
    by_cases hx : x = f <;> simp [hx]
  have hafter : late.filter (fun x => !decide (x = f)) = files.filter (f < ·) := by
    rw [List.filter_filter]
    apply List.filter_congr
    intro x _
    rcases lt_trichotomy x f with hx | rfl | hx
    · simp [hx, not_lt_of_gt hx]
    · simp
    · simp [hx, ne_of_gt hx, not_lt_of_gt hx]
  rw [hsame, hafter] at hsecond
  rw [← hsecond]
  exact hfirst

namespace Session
open Component (Selection)

theorem collect_append (os ps : List (Option FileAnalysis)) :
    collect (os ++ ps) = collect os ++ collect ps := by
  simp only [collect, List.filterMap_append, List.filter_append, List.length_append,
    List.flatMap_append]
  rfl

/-- Every file is analyzed or skipped. -/
theorem analyzed_add_skipped (os : List (Option FileAnalysis)) :
    (collect os).analyzed + (collect os).skipped = os.length := by
  induction os with
  | nil => rfl
  | cons o os ih =>
    obtain ⟨hanalyzed, hskipped, _⟩ := collect_cons o os
    have hone : (collect [o]).analyzed + (collect [o]).skipped = 1 := by cases o <;> rfl
    rw [hanalyzed, hskipped, List.length_cons]
    omega

/-- What files say by themselves is about these files. -/
theorem about_collect (h : Host) (o : Selection) {files : List String} {p : String → Prop}
    (hp : ∀ file ∈ files, p file) : (collect (files.map (analyzeFile h o))).About p := by
  have hrecord (g : FileAnalysis) (hg : g ∈ (files.map (analyzeFile h o)).filterMap id) :
      (∀ d ∈ g.declarations, p d.file) ∧ ∀ u ∈ g.usages, p u.file := by
    obtain ⟨told, htold, hid⟩ := List.mem_filterMap.mp hg
    obtain ⟨file, hfile, rfl⟩ := List.mem_map.mp htold
    obtain ⟨_, hd, hu⟩ := Reading.file_of_analysis (x := ⟨h, o, file⟩) hid
    constructor
    · intro d hdg
      rw [hd d hdg]
      exact hp file hfile
    · intro u hug
      rw [hu u hug]
      exact hp file hfile
  constructor
  · intro d hd
    obtain ⟨g, hg, hdg⟩ := List.mem_flatMap.mp hd
    exact (hrecord g hg).1 d hdg
  · intro u hu
    obtain ⟨g, hg, hug⟩ := List.mem_flatMap.mp hu
    exact (hrecord g hg).2 u hug

/-- Whether a path leads to no file that can be read: one that holds a zero byte, is not UTF-8 or
does not follow the grammar. -/
def Unreadable (h : Host) (file : String) : Prop :=
  ∀ bytes modified p, h.stat file = .ok (.file bytes modified) → SourceFile.read file bytes ≠ .ok p

theorem Unreadable.analyzeFile {h : Host} {file : String} (hr : Unreadable h file) (o : Selection) :
    analyzeFile h o file = none := by
  cases ha : Session.analyzeFile h o file with
  | none => rfl
  | some g =>
    obtain ⟨bytes, modified, p, hs, hp, _⟩ := Reading.analysis_eq_some (x := ⟨h, o, file⟩) ha
    exact absurd hp (hr bytes modified p hs)

theorem collect_of_none {os : List (Option FileAnalysis)} (ho : ∀ o ∈ os, o = none) :
    (collect os).analyzed = 0 ∧ (collect os).components = [] ∧ (collect os).usages = [] := by
  have hnone : os.filterMap id = [] := by
    apply List.filterMap_eq_nil_iff.mpr
    exact ho
  simp only [collect, hnone]
  exact ⟨rfl, rfl, rfl⟩

/-- Findings about files of a host that are in order: those before a path, those of the path in one
block, which is empty if the file cannot be read, and those after it. No file goes uncounted. -/
structure Split (h : Host) (files : List String) (f : String) (r before own after : Findings) :
    Prop where
  eq : r = before ++ (own ++ after)
  about_before : before.About (· < f)
  about_own : own.About (· = f)
  about_after : after.About (f < ·)
  skipped : Unreadable h f → own.analyzed = 0 ∧ own.components = [] ∧ own.usages = []
  counted : r.analyzed + r.skipped = files.length

theorem split_of_sorted (h : Host) (o : Selection) {files : List String}
    (hs : files.Pairwise (· ≤ ·)) (f : String) :
    Split h files f (collect (files.map (analyzeFile h o)))
      (collect ((files.filter (· < f)).map (analyzeFile h o)))
      (collect ((files.filter (· = f)).map (analyzeFile h o)))
      (collect ((files.filter (f < ·)).map (analyzeFile h o))) where
  eq := by
    rw [← collect_append, ← collect_append, ← List.map_append, ← List.map_append,
      ← eq_append_of_sorted hs f]
  about_before := about_collect h o (fun _ hx => of_decide_eq_true (List.mem_filter.mp hx).2)
  about_own := about_collect h o (fun _ hx => of_decide_eq_true (List.mem_filter.mp hx).2)
  about_after := about_collect h o (fun _ hx => of_decide_eq_true (List.mem_filter.mp hx).2)
  skipped := by
    intro hr
    apply collect_of_none
    intro told htold
    obtain ⟨file, hfile, rfl⟩ := List.mem_map.mp htold
    have hf : file = f := of_decide_eq_true (List.mem_filter.mp hfile).2
    rw [hf]
    exact hr.analyzeFile o
  counted := by
    rw [analyzed_add_skipped, List.length_map]

namespace Analyzer

/-- A report in full is collected from what the files say by themselves if nothing else is told. -/
theorem ask_full_of_truthful {a : Analyzer} {h : Host} {reach : Reach} {o : Selection}
    {y : Report.Style} (ht : a.Truthful h (.analyze reach o (.string "full") y))
    {files : List String} (hs : h.sourceFiles (a.scope reach) reach.path = .ok files) :
    (a.ask h (.analyze reach o (.string "full") y)).1 = .ok (.findings .full y
      (collect (files.map (analyzeFile h
        { o with component := selecting o.component, prop := selecting o.prop })))) := by
  have hplan : plan (.analyze reach o (.string "full") y) =
      .ok ⟨reach, { o with component := selecting o.component, prop := selecting o.prop },
        fun r => .ok (.findings .full y r)⟩ := rfl
  rw [ask_of_truthful ht, concluded, hplan]
  dsimp only
  rw [hs]
  rfl

theorem ask_full {a : Analyzer} (hoff : a.config.cacheEnabled = false) {h : Host} {reach : Reach}
    {files : List String} (hs : h.sourceFiles (a.scope reach) reach.path = .ok files)
    (o : Selection) (y : Report.Style) :
    (a.ask h (.analyze reach o (.string "full") y)).1 = .ok (.findings .full y
      (collect (files.map (analyzeFile h
        { o with component := selecting o.component, prop := selecting o.prop })))) :=
  ask_full_of_truthful (truthful_of_disabled hoff h _) hs

theorem ask_full_of_error (a : Analyzer) {h : Host} {reach : Reach} {e : FileSystem.SearchFault}
    (hs : h.sourceFiles (a.scope reach) reach.path = .error e) (o : Selection) (y : Report.Style) :
    (a.ask h (.analyze reach o (.string "full") y)).1 = .error (.ofSearch reach.path e) := by
  have hplan : plan (.analyze reach o (.string "full") y) =
      .ok ⟨reach, { o with component := selecting o.component, prop := selecting o.prop },
        fun r => .ok (.findings .full y r)⟩ := rfl
  exact ask_of_unreached hplan hs

/-- If two hosts differ in one file only, reports without a cache differ in the records of that file
only. -/
theorem report_local (a : Analyzer) (hoff : a.config.cacheEnabled = false) {place : List String}
    {h h' : Host} (hd : Host.AlikeBut place h h') (reach : Reach) (o : Selection)
    (y : Report.Style) (f : String)
    (hone : ∀ files, h.sourceFiles (a.scope reach) reach.path = .ok files →
      ∀ file ∈ files, h.locate file = .ok place → file = f) :
    let q : Request := .analyze reach o (.string "full") y
    h.sourceFiles (a.scope reach) reach.path = h'.sourceFiles (a.scope reach) reach.path ∧
    (∀ e, h.sourceFiles (a.scope reach) reach.path = .error e →
      (a.ask h q).1 = .error (.ofSearch reach.path e) ∧
      (a.ask h' q).1 = .error (.ofSearch reach.path e)) ∧
    ∀ files, h.sourceFiles (a.scope reach) reach.path = .ok files →
      files.Pairwise (· ≤ ·) ∧
      ∃ r r' before own own' after,
        (a.ask h q).1 = .ok (.findings .full y r) ∧ (a.ask h' q).1 = .ok (.findings .full y r') ∧
        Split h files f r before own after ∧ Split h' files f r' before own' after := by
  intro q
  have hfiles := hd.sourceFiles (a.scope reach) reach.path
  refine ⟨hfiles, ?_, ?_⟩
  · intro e he
    exact ⟨a.ask_full_of_error he o y, a.ask_full_of_error (hfiles ▸ he) o y⟩
  · intro files hs
    have hsorted := Host.sourceFiles_sorted hs
    let chosen := { o with component := selecting o.component, prop := selecting o.prop }
    have hother (file : String) (hfile : file ∈ files) (hne : file ≠ f) :
        analyzeFile h' chosen file = analyzeFile h chosen file := by
      symm
      apply analyzeFile_congr (hd.locate file)
      intro p hp
      apply hd.content
      intro hplace
      exact hne (hone files hs file hfile (hplace ▸ hp))
    -- Off `f` the two hosts tell the same, so the blocks around it are shared.
    have hshared (p : String → Bool) (hp : ∀ file, p file = true → file ≠ f) :
        (files.filter p).map (analyzeFile h' chosen) =
          (files.filter p).map (analyzeFile h chosen) := by
      apply List.map_congr_left
      intro file hfile
      obtain ⟨hmem, hfile⟩ := List.mem_filter.mp hfile
      exact hother file hmem (hp file hfile)
    have hsplit' := split_of_sorted h' chosen hsorted f
    rw [hshared _ (fun _ hlt => ne_of_lt (of_decide_eq_true hlt)),
      hshared _ (fun _ hlt => ne_of_gt (of_decide_eq_true hlt))] at hsplit'
    exact ⟨hsorted, _, _, _, _, _, _, ask_full hoff hs o y, ask_full hoff (hfiles ▸ hs) o y,
      split_of_sorted h chosen hsorted f, hsplit'⟩

/-- Three files, of which the bytes of the second one are left open. -/
def trio (middle : List UInt8) : Host where
  root := .directory [("a.tsx", .file "<A x/>;".toUTF8.toList 0), ("b.tsx", .file middle 0),
    ("c.tsx", .file "<C y/>;".toUTF8.toList 0)]

theorem alikeBut_trio (middle middle' : List UInt8) :
    Host.AlikeBut ["b.tsx"] (trio middle) (trio middle') where
  bare := rfl
  content := by
    intro p hp
    rcases p with _ | ⟨n, p⟩
    · rfl
    have hget : (trio middle).root.get? (n :: p) = (trio middle').root.get? (n :: p) := by
      by_cases hn : n = "b.tsx"
      · -- Nothing is below a file.
        have hnil : p ≠ [] := fun hnil => hp (by rw [hn, hnil])
        obtain ⟨m, p, rfl⟩ := List.exists_cons_of_ne_nil hnil
        rw [hn]
        rfl
      · simp [trio, FileSystem.Entry.get?, FileSystem.Entry.listing, Table.get?, Ne.symm hn]
    simp only [FileSystem.Entry.contentAt, hget]

theorem sourceFiles_trio (middle : List UInt8) :
    (trio middle).sourceFiles {} "/" = .ok ["/a.tsx", "/b.tsx", "/c.tsx"] := by
  have hleaves : FileSystem.leaves {} 1 (trio []).root.listing =
      [["a.tsx"], ["b.tsx"], ["c.tsx"]] := by
    simp [FileSystem.leaves, trio, FileSystem.Entry.listing, FileSystem.Scope.admits]
  rw [(alikeBut_trio middle []).sourceFiles]
  apply Host.sourceFiles_of_found rfl rfl hleaves
  · rw [FileSystem.extendAll_eq]
    decide
  · decide

theorem unreadable_trio : Unreadable (trio [0]) "/b.tsx" := by
  intro bytes modified p hs
  cases hs
  exact fun hr => nomatch hr

/-- Of three files the second one is in order on one host and holds a zero byte on the other. -/
theorem report_local_trio :
    let a := Analyzer.new { cacheEnabled := false }
    let good := trio "<B z/>;".toUTF8.toList
    let bad := trio [0]
    let q : Request := .analyze { path := "/" } {} (.string "full") {}
    Host.AlikeBut ["b.tsx"] good bad ∧
    (∀ file ∈ ["/a.tsx", "/b.tsx", "/c.tsx"], good.locate file = .ok ["b.tsx"] → file = "/b.tsx") ∧
    ∃ r r' before own own' after,
      (a.ask good q).1 = .ok (.findings .full {} r) ∧ (a.ask bad q).1 = .ok (.findings .full {} r') ∧
      r = before ++ (own ++ after) ∧ r' = before ++ (own' ++ after) ∧
      own'.components = [] ∧ own'.usages = [] ∧ r'.analyzed + r'.skipped = 3 := by
  intro a good bad q
  have hfiles : good.sourceFiles (a.scope { path := "/" }) "/" =
      .ok ["/a.tsx", "/b.tsx", "/c.tsx"] := sourceFiles_trio _
  have hone : ∀ file ∈ ["/a.tsx", "/b.tsx", "/c.tsx"],
      good.locate file = .ok ["b.tsx"] → file = "/b.tsx" := by decide
  obtain ⟨_, _, hreport⟩ := report_local a rfl (alikeBut_trio "<B z/>;".toUTF8.toList [0])
    { path := "/" } {} {} "/b.tsx" (by
      intro files hs
      cases hfiles.symm.trans hs
      exact hone)
  obtain ⟨_, r, r', before, own, own', after, hgood, hbad, hsplit, hsplit'⟩ := hreport _ hfiles
  obtain ⟨_, hcomponents, husages⟩ := hsplit'.skipped unreadable_trio
  exact ⟨alikeBut_trio _ _, hone, r, r', before, own, own', after, hgood, hbad, hsplit.eq,
    hsplit'.eq, hcomponents, husages, hsplit'.counted⟩

end Analyzer
end Session
end PropAtlas
