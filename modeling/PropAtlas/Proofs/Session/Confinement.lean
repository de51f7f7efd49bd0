import PropAtlas.Proofs.FileSystem.Discovery
import PropAtlas.Proofs.FileSystem.Outline
import PropAtlas.Proofs.PathArgument
import PropAtlas.Proofs.Session.Readings
import PropAtlas.Session.Tool

/-! What a call of a tool can show. Apart from the outline of the file system, an answer depends on
the bytes of files that stand below an allowed directory and of those that a link below an allowed
directory leads to. Such a link may lead out of all allowed directories, so an answer may show a file
that is in none of them, unless the call stays inside a project that is below an allowed directory. -/

namespace PropAtlas

/-- The bytes of the file at a place. -/
def FileSystem.Entry.contentAt (root : FileSystem.Entry) (place : List String) :
    Option (List UInt8) :=
  match root.get? place with
  | some (.file content _) => some content
  | _ => none

/-- Whether a place is reached from an allowed directory. -/
def Config.Exposes (c : Config) (h : Host) (bounded : Bool) (place : List String) : Prop :=
  c.allowedRoots = [] ∨ ∃ r ∈ c.allowedRoots, r.anchor = .root ∧ h.Reaches bounded r.names place

theorem Config.Permits.exposes {c : Config} {h : Host} {bounded : Bool} {top place : List String}
    (hp : c.Permits top) (hreach : h.Reaches bounded top place) : c.Exposes h bounded place := by
  rcases hp with hall | ⟨r, hr, hanchor, htop⟩
  · exact Or.inl hall
  · exact Or.inr ⟨r, hr, hanchor, hreach.mono htop⟩

namespace Session
open FileSystem (Entry)
open Component (Selection)

/-! ### Requests of calls -/

/-- Where a request looks. -/
def Request.reach : Request → Reach
  | .analyze reach _ _ _ => reach
  | .declarations _ directory => { path := directory }
  | .audit _ _ directory _ => { path := directory }
  | .query reach _ _ _ _ => reach

theorem Analyzer.reach_of_plan {q : Request} {p : Plan} (h : plan q = .ok p) :
    p.reach = q.reach := by
  cases q with
  | analyze reach o given y =>
    obtain ⟨f, _, hp⟩ := Query.bind_eq_ok_iff.mp h
    cases hp
    rfl
  | declarations component directory =>
    cases h
    rfl
  | audit component required directory trusting =>
    cases h
    rfl
  | query reach component criteria logic y =>
    obtain ⟨q, _, hp⟩ := Query.bind_eq_ok_iff.mp h
    cases hp
    rfl

namespace Tool

/-- Whether a call stays inside the project, by itself or by the settings. -/
def isBounded (c : Config) : Tool → Bool
  | .analyze _ bounded _ _ _ _ => bounded.getD c.bounded
  | .query _ _ _ _ bounded _ _ => bounded.getD c.bounded
  | _ => c.bounded

theorem checkPath_of_pathOf {c : Config} {h : Host} {argument p : String} {path : Option String}
    (hp : pathOf c h argument path = .ok p) : c.checkPath h argument path = .ok p := by
  unfold pathOf at hp
  cases hc : c.checkPath h argument path with
  | error f =>
    rw [hc] at hp
    cases hp
  | ok p' =>
    rw [hc] at hp
    cases hp
    rfl

/-- Every request of a call is about a path that was accepted, and is as bounded as the call. -/
theorem checkPath_of_request {c : Config} {h : Host} {t : Tool} {q : Request}
    (hq : t.request c h = .ok q) :
    (∃ argument path, c.checkPath h argument path = .ok q.reach.path) ∧
      q.reach.bounded.getD c.bounded = t.isBounded c := by
  cases t with
  | analyze path bounded depth o format y =>
    obtain ⟨p, hp, hr⟩ := Query.bind_eq_ok_iff.mp hq
    cases hr
    exact ⟨⟨_, _, checkPath_of_pathOf hp⟩, rfl⟩
  | usage prop directory component format y =>
    obtain ⟨_, _, hq⟩ := Query.bind_eq_ok_iff.mp hq
    obtain ⟨p, hp, hr⟩ := Query.bind_eq_ok_iff.mp hq
    cases hr
    exact ⟨⟨_, _, checkPath_of_pathOf hp⟩, rfl⟩
  | declarations component directory =>
    obtain ⟨_, _, hq⟩ := Query.bind_eq_ok_iff.mp hq
    obtain ⟨p, hp, hr⟩ := Query.bind_eq_ok_iff.mp hq
    cases hr
    exact ⟨⟨_, _, checkPath_of_pathOf hp⟩, rfl⟩
  | audit component prop directory trusting =>
    obtain ⟨_, _, hq⟩ := Query.bind_eq_ok_iff.mp hq
    obtain ⟨_, _, hq⟩ := Query.bind_eq_ok_iff.mp hq
    obtain ⟨p, hp, hr⟩ := Query.bind_eq_ok_iff.mp hq
    cases hr
    exact ⟨⟨_, _, checkPath_of_pathOf hp⟩, rfl⟩
  | query component criteria logic directory bounded depth y =>
    obtain ⟨_, _, hq⟩ := Query.bind_eq_ok_iff.mp hq
    obtain ⟨p, hp, hr⟩ := Query.bind_eq_ok_iff.mp hq
    cases hr
    exact ⟨⟨_, _, checkPath_of_pathOf hp⟩, rfl⟩

@[simp]
theorem request_outline (c : Config) (h : Host) (t : Tool) :
    t.request c h.outline = t.request c h := by
  have hpath (argument : String) (path : Option String) :
      pathOf c h.outline argument path = pathOf c h argument path := by
    rw [pathOf, pathOf, Config.checkPath_outline]
  cases t <;> simp only [request, hpath]

end Tool

/-! ### Answers -/

/-- A new analyzer tells what files say. -/
theorem Analyzer.tells_new (c : Config) (x : Reading) : (Analyzer.new c).tells x = x.analysis := by
  cases hk : (Analyzer.new c).known x with
  | none => exact tells_of_unknown hk
  | some f =>
    obtain ⟨_, _, hmem⟩ := mem_of_known hk
    exact absurd hmem List.not_mem_nil

theorem exists_stat_file_iff {h : Host} {file : String} {bytes : List UInt8} :
    (∃ modified, h.stat file = .ok (.file bytes modified)) ↔
      ∃ place, h.locate file = .ok place ∧ h.root.contentAt place = some bytes := by
  have hcontent (place : List String) : h.root.contentAt place = some bytes ↔
      ∃ modified, h.root.get? place = some (.file bytes modified) := by
    unfold Entry.contentAt
    cases h.root.get? place with
    | none => simp
    | some e => cases e <;> simp
  simp only [Host.stat_eq_ok_iff, hcontent]
  constructor
  · rintro ⟨modified, place, hl, hget⟩
    exact ⟨place, hl, modified, hget⟩
  · rintro ⟨place, hl, modified, hget⟩
    exact ⟨modified, place, hl, hget⟩

theorem analyzeFile_eq_none {h : Host} {o : Selection} {file : String}
    (hs : ∀ bytes modified, h.stat file ≠ .ok (.file bytes modified)) :
    analyzeFile h o file = none := by
  unfold analyzeFile
  split
  · rename_i hfile
    exact absurd hfile (hs _ _)
  · rfl

/-- What a file says depends on where its path leads and on the bytes there. -/
theorem analyzeFile_congr {h h' : Host} {o : Selection} {file : String}
    (hlocate : h.locate file = h'.locate file)
    (hcontent : ∀ place, h.locate file = .ok place →
      h.root.contentAt place = h'.root.contentAt place) :
    analyzeFile h o file = analyzeFile h' o file := by
  have hsame (bytes : List UInt8) : (∃ m, h.stat file = .ok (.file bytes m)) ↔
      ∃ m, h'.stat file = .ok (.file bytes m) := by
    rw [exists_stat_file_iff, exists_stat_file_iff, ← hlocate]
    constructor
    · rintro ⟨place, hl, hbytes⟩
      exact ⟨place, hl, hcontent place hl ▸ hbytes⟩
    · rintro ⟨place, hl, hbytes⟩
      exact ⟨place, hl, (hcontent place hl).symm ▸ hbytes⟩
  by_cases hfile : ∃ bytes m, h.stat file = .ok (.file bytes m)
  · obtain ⟨bytes, m, hs⟩ := hfile
    obtain ⟨m', hs'⟩ := (hsame bytes).mp ⟨m, hs⟩
    have heq : (Reading.mk h o file).analysis = (Reading.mk h' o file).analysis :=
      Reading.analysis_eq hs hs' rfl rfl
    exact heq
  · rw [analyzeFile_eq_none (fun bytes m hs => hfile ⟨bytes, m, hs⟩),
      analyzeFile_eq_none (fun bytes m hs => hfile ⟨bytes, (hsame bytes).mpr ⟨m, hs⟩⟩)]

namespace Tool

/-- The answer to a call of a tool does not depend on the bytes of a file that is neither below an
allowed directory nor where a link below one leads. Calls that stay inside the project depend on a
linked file only if the project is above the allowed directory too. -/
theorem call_confined (c : Config) (h h' : Host) (t : Tool) (hwf : h.root.WellFormed)
    (hcwd : FileSystem.Canonical h.root h.cwd) (houtline : h.outline = h'.outline)
    (hagree : ∀ place, c.Exposes h (t.isBounded c) place →
      h.root.contentAt place = h'.root.contentAt place) :
    (t.call (Analyzer.new c) h).1 = (t.call (Analyzer.new c) h').1 := by
  have hrequest : t.request c h' = t.request c h := by
    rw [← request_outline c h', ← houtline, request_outline]
  have hfiles (o : FileSystem.Scope) (path : String) :
      h'.sourceFiles o path = h.sourceFiles o path := by
    rw [← h'.sourceFiles_outline, ← houtline, h.sourceFiles_outline]
  have hlocate (path : String) : h.locate path = h'.locate path := by
    rw [← h.locate_outline, houtline, h'.locate_outline]
  have hconfig : (Analyzer.new c).config = c := rfl
  unfold call
  rw [hconfig, hrequest]
  cases hq : t.request c h with
  | error f => rfl
  | ok q =>
    dsimp only
    rw [Analyzer.ask_eq, Analyzer.ask_eq]
    refine congrArg (Except.mapError Fault.request) ?_
    unfold Analyzer.concluded
    cases hp : Analyzer.plan q with
    | error f => rfl
    | ok p =>
      dsimp only
      rw [hfiles]
      cases hs : h.sourceFiles ((Analyzer.new c).scope p.reach) p.reach.path with
      | error f => rfl
      | ok files =>
        -- The files are the same; each of them is reached from the path that was accepted.
        have htold (file : String) (hfile : file ∈ files) :
            (Analyzer.new c).tells ⟨h, p.selection, file⟩ =
              (Analyzer.new c).tells ⟨h', p.selection, file⟩ := by
          rw [Analyzer.tells_new, Analyzer.tells_new]
          obtain ⟨⟨argument, path, hpath⟩, hbounded⟩ := checkPath_of_request hq
          rw [← Analyzer.reach_of_plan hp] at hpath hbounded
          obtain ⟨hrooted, top, htop, hpermits⟩ := Config.locate_of_checkPath hcwd hpath
          apply analyzeFile_congr (hlocate file)
          intro place hplace
          have hreach := Host.reaches_of_mem_sourceFiles hwf hrooted htop hs hfile hplace
          have hscope : ((Analyzer.new c).scope p.reach).bounded = t.isBounded c := hbounded
          rw [hscope] at hreach
          exact hagree place (hpermits.exposes hreach)
        dsimp only
        rw [List.map_congr_left htold]

/-! ### A link out of the allowed directory -/

/-- Two files outside the allowed directory `in`. A link in it leads to the first one. -/
def premises (linked hidden : String) : Host where
  root := .directory
    [("in", .directory [("a.tsx", .link "../out/a.tsx")]),
      ("out", .directory [("a.tsx", .file linked.toUTF8.toList 0),
        ("b.tsx", .file hidden.toUTF8.toList 0)])]

def insideOnly : Config where
  allowedRoots := [.absolute ["in"]]

def nameA : Text := Text.ofString "A"

def declarationsOfA : Tool := .declarations (some nameA) (some "/in")

theorem outline_premises {linked linked' hidden hidden' : String}
    (hlinked : linked.toUTF8.toList.length = linked'.toUTF8.toList.length)
    (hhidden : hidden.toUTF8.toList.length = hidden'.toUTF8.toList.length) :
    (premises linked hidden).outline = (premises linked' hidden').outline := by
  simp only [Host.outline, premises, Entry.outline, Entry.outlineOf, List.map_const', hlinked,
    hhidden]

theorem wellFormed_premises (linked hidden : String) :
    (premises linked hidden).root.WellFormed := by
  simp only [premises, Entry.WellFormed, Entry.WellFormedOf, Table.keys, List.map]
  decide

theorem canonical_premises (linked hidden : String) :
    FileSystem.Canonical (premises linked hidden).root (premises linked hidden).cwd := by
  apply FileSystem.canonical_iff.mpr
  simp [premises, Entry.get?, Entry.isLink]

theorem contentAt_premises_inside {linked linked' hidden hidden' : String} {place : List String}
    (h : ["in"] <+: place) : (premises linked hidden).root.contentAt place =
      (premises linked' hidden').root.contentAt place := by
  obtain ⟨rest, rfl⟩ := h
  rfl

theorem call_confined_hidden :
    (premises "function A() {}" "x").root.WellFormed ∧
    FileSystem.Canonical (premises "function A() {}" "x").root (premises "function A() {}" "x").cwd ∧
    (premises "function A() {}" "x").outline = (premises "function A() {}" "y").outline ∧
    (∀ place, insideOnly.Exposes (premises "function A() {}" "x") false place →
      (premises "function A() {}" "x").root.contentAt place =
        (premises "function A() {}" "y").root.contentAt place) ∧
    (declarationsOfA.call (Analyzer.new insideOnly) (premises "function A() {}" "x")).1 =
      (declarationsOfA.call (Analyzer.new insideOnly) (premises "function A() {}" "y")).1 := by
  have houtline : (premises "function A() {}" "x").outline =
      (premises "function A() {}" "y").outline := outline_premises rfl (by decide +kernel)
  have hagree : ∀ place, insideOnly.Exposes (premises "function A() {}" "x") false place →
      (premises "function A() {}" "x").root.contentAt place =
        (premises "function A() {}" "y").root.contentAt place := by
    rintro place (hnone | ⟨r, hr, _, hreach⟩)
    · cases hnone
    cases List.mem_singleton.mp hr
    rcases hreach with hbelow | ⟨⟨dir, n, target, _, hlink, d, hleads⟩, _⟩
    · exact contentAt_premises_inside hbelow
    · -- There is one link, and it leads to the first file.
      have hlinks : (premises "function A() {}" "x").root.places Entry.isLink =
          [["in"] ++ ["a.tsx"]] := rfl
      have hmem : dir ++ [n] ∈ (premises "function A() {}" "x").root.places Entry.isLink :=
        Entry.mem_places hlink List.mem_cons_self
      rw [hlinks] at hmem
      obtain ⟨rfl, hn⟩ := List.append_inj' (List.mem_singleton.mp hmem) rfl
      cases hn
      cases hlink
      have hplace : FileSystem.locate (premises "function A() {}" "x").root 0 ["in"]
          (Path.steps "../out/a.tsx") = .ok ["out", "a.tsx"] := by decide
      cases hleads.unique (FileSystem.leads_of_locate hplace)
      rfl
  exact ⟨wellFormed_premises _ _, canonical_premises _ _, houtline, hagree,
    call_confined insideOnly _ _ declarationsOfA (wellFormed_premises _ _) (canonical_premises _ _)
      houtline hagree⟩

theorem sourceFiles_premises :
    (premises "function A() {}" "").sourceFiles {} "/in" = .ok ["/in/a.tsx"] := by
  have hleaves : FileSystem.leaves {} 1 [("a.tsx", .link "../out/a.tsx")] = [["a.tsx"]] := by
    simp [FileSystem.leaves, FileSystem.Scope.admits]
  apply Host.sourceFiles_of_found rfl rfl hleaves
  · rw [FileSystem.extendAll_eq]
    decide
  · exact List.pairwise_singleton _ _

theorem request_premises : declarationsOfA.request insideOnly (premises "function A() {}" "") =
    .ok (.declarations nameA "/in") := by
  have hpath : insideOnly.checkPath (premises "function A() {}" "") "directory" (some "/in") =
      .ok "/in" := by decide
  have hname : required "component_name" (some nameA) = .ok nameA := rfl
  simp only [declarationsOfA, request, pathOf, hpath, hname]
  rfl

/-- On the premises, and wherever the outline is the same, the answer is about the linked file. -/
theorem call_premises {h : Host} (houtline : h.outline = (premises "function A() {}" "").outline) :
    (declarationsOfA.call (Analyzer.new insideOnly) h).1 =
      .ok (.declarations ((collect [analyzeFile h { component := some nameA } "/in/a.tsx"]).components
        |>.filter (fun d => Text.ofString d.component == nameA))) := by
  have hrequest : declarationsOfA.request insideOnly h = .ok (.declarations nameA "/in") := by
    rw [← request_outline, houtline, request_outline, request_premises]
  have hfiles : h.sourceFiles {} "/in" = .ok ["/in/a.tsx"] := by
    rw [← h.sourceFiles_outline, houtline, Host.sourceFiles_outline, sourceFiles_premises]
  have hplan : Analyzer.plan (.declarations nameA "/in") =
      .ok ⟨{ path := "/in" }, { component := some nameA }, fun r =>
        .ok (.declarations (r.components.filter (fun d => Text.ofString d.component == nameA)))⟩ := rfl
  have hconfig : (Analyzer.new insideOnly).config = insideOnly := rfl
  unfold call
  rw [hconfig, hrequest]
  dsimp only
  rw [Analyzer.ask_of_files hplan hfiles, List.map_singleton, Analyzer.tells_new]
  rfl

/-- An answer may show a file that is in no allowed directory: changing nothing but the bytes of that
file changes the answer. -/
theorem call_shows_through_link :
    insideOnly.allowedRoots ≠ [] ∧
    (premises "function A() {}" "").root.WellFormed ∧
    FileSystem.Canonical (premises "function A() {}" "").root (premises "function A() {}" "").cwd ∧
    (premises "function A() {}" "").outline = (premises "function B() {}" "").outline ∧
    (∀ place, insideOnly.Permits place → (premises "function A() {}" "").root.contentAt place =
      (premises "function B() {}" "").root.contentAt place) ∧
    declarationsOfA.reply
        (declarationsOfA.call (Analyzer.new insideOnly) (premises "function A() {}" "")).1 ≠
      declarationsOfA.reply
        (declarationsOfA.call (Analyzer.new insideOnly) (premises "function B() {}" "")).1 := by
  have houtline : (premises "function A() {}" "").outline =
      (premises "function B() {}" "").outline := outline_premises (by decide +kernel) rfl
  refine ⟨by decide, wellFormed_premises _ _, canonical_premises _ _, houtline, ?_, ?_⟩
  · rintro place (hnone | ⟨r, hr, _, hbelow⟩)
    · cases hnone
    · cases List.mem_singleton.mp hr
      exact contentAt_premises_inside hbelow
  · -- One declaration is counted before the change and none after it.
    have hone : ((collect [analyzeFile (premises "function A() {}" "") { component := some nameA }
        "/in/a.tsx"]).components.filter (fun d => Text.ofString d.component == nameA)).length = 1 := by
      decide +kernel
    have hnone : ((collect [analyzeFile (premises "function B() {}" "") { component := some nameA }
        "/in/a.tsx"]).components.filter (fun d => Text.ofString d.component == nameA)).length = 0 := by
      decide +kernel
    have hreply (ds : List Declaration) : declarationsOfA.reply (.ok (.declarations ds)) =
        .ok (.record [("ok", .bool true), ("component_name", .text nameA),
          ("components", (Answer.declarations ds).toJson), ("count", .nat ds.length)]) := rfl
    rw [call_premises rfl, call_premises houtline.symm, hreply, hreply, hone, hnone]
    intro heq
    simp [Json.nat, Json.record] at heq

end Tool
end Session
end PropAtlas
