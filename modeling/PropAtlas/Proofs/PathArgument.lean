import PropAtlas.Config
import PropAtlas.Proofs.FileSystem.Home
import PropAtlas.Proofs.FileSystem.Markers
import PropAtlas.Proofs.FileSystem.RealPath

/-! Path arguments. A path that is accepted exists, is its own real path, and is below an allowed
directory name by name, however the argument spells it; and every argument whose real path is so is
accepted. -/

namespace PropAtlas
open FileSystem

namespace Host

/-- Whether a place is the real path of a path. -/
def LeadsTo (h : Host) (p : Path) (place : List String) : Prop :=
  ∃ depth, Leads h.root depth (if p.anchor = .here then h.cwd else []) p.names place

variable {h : Host} {p : Path} {place : List String}

theorem LeadsTo.resolve (hp : h.LeadsTo p place) : h.resolve p = .absolute place := by
  obtain ⟨depth, hleads⟩ := hp
  rw [Host.resolve, hleads.real_links]

theorem exists_leadsTo (hloops : LoopFree h.root) (p : Path) : ∃ place, h.LeadsTo p place := by
  obtain ⟨depth, place, hleads⟩ := hloops.leads (if p.anchor = .here then h.cwd else []) p.names
  exact ⟨place, depth, hleads⟩

/-- Without loops, the real path is what a path is resolved to. -/
theorem leadsTo_iff (hloops : LoopFree h.root) :
    h.LeadsTo p place ↔ h.resolve p = .absolute place := by
  constructor
  · exact LeadsTo.resolve
  · intro hresolve
    obtain ⟨q, hq⟩ := exists_leadsTo hloops p
    cases hq.resolve.symm.trans hresolve
    exact hq

theorem LeadsTo.canonical (hp : h.LeadsTo p place) (hcwd : Canonical h.root h.cwd)
    (hnames : ∀ n ∈ p.names, '/' ∉ n.toList) : Canonical h.root place := by
  obtain ⟨depth, hleads⟩ := hp
  refine hleads.canonical ?_ hnames
  split_ifs
  · exact hcwd
  · exact hcwd.of_prefix List.nil_prefix

theorem leadsTo_absolute (hplace : Canonical h.root place) :
    h.LeadsTo (.absolute place) place :=
  ⟨0, (hplace : Canonical h.root ([] ++ place)).leads⟩

/-- A path with a zero character leads nowhere. -/
theorem zero_not_mem_of_stat {path : String} {e : Entry} (hs : h.stat path = .ok e) :
    '\x00' ∉ path.toList := by
  intro hzero
  obtain ⟨place, hl, _⟩ := stat_eq_ok_iff.mp hs
  rw [locate, if_pos (by simpa using hzero)] at hl
  cases hl

theorem slash_not_mem_ofString (text : String) : ∀ n ∈ (Path.ofString text).names, '/' ∉ n.toList :=
  fun _ hn => Path.slash_not_mem_steps (List.mem_of_mem_filter hn)

theorem Expands.slash_not_mem {q : Path} (hq : h.Expands p q) (hp : ∀ n ∈ p.names, '/' ∉ n.toList) :
    ∀ n ∈ q.names, '/' ∉ n.toList := by
  cases hq with
  | literal _ => exact hp
  | @home user text rest dir _ hdir =>
    have hhome : ∀ n ∈ dir.names, '/' ∉ n.toList := by
      cases hdir with
      | root _ => exact fun n hn => absurd hn List.not_mem_nil
      | place _ _ => exact slash_not_mem_ofString text
    intro n hn
    rcases List.mem_append.mp hn with hn | hn
    · exact hhome n hn
    · exact hp n (List.mem_cons_of_mem _ hn)

end Host

namespace Config

/-- Whether an argument spells a path: home directories are put in, and a relative path is read from the
source path if there is one. -/
inductive Spells (c : Config) (h : Host) (text : String) : Path → Prop where
  | whole {p : Path} (hp : h.Expands (.ofString text) p)
      (hfree : c.sourcePath = none ∨ p.anchor ≠ .here) : Spells c h text p
  | below {p dir : Path} {base : String} (hp : h.Expands (.ofString text) p) (hhere : p.anchor = .here)
      (hbase : c.sourcePath = some base) (hdir : h.Expands (.ofString base) dir) :
      Spells c h text ⟨dir.anchor, dir.names ++ p.names⟩

/-- Whether a place is the real path of an argument. A text with a zero character is no path. -/
def RealPath (c : Config) (h : Host) (text : String) (place : List String) : Prop :=
  '\x00' ∉ text.toList ∧ ∃ p, c.Spells h text p ∧ h.LeadsTo p place

/-- Whether a place is at or below an allowed directory, name by name. -/
def Permits (c : Config) (place : List String) : Prop :=
  c.allowedRoots = [] ∨ ∃ r ∈ c.allowedRoots, r.anchor = .root ∧ r.names <+: place

variable {c : Config} {h : Host}

theorem resolve_of_whole {text : String} {p : Path} (hp : h.expandHome (.ofString text) = .ok p)
    (hfree : c.sourcePath = none ∨ p.anchor ≠ .here) : c.resolve h text = .ok (h.resolve p) := by
  unfold resolve
  rw [hp]
  cases hbase : c.sourcePath with
  | none => rfl
  | some base => exact if_neg (hfree.resolve_left (by simp [hbase]))

theorem resolve_of_here {text base : String} {p : Path} (hp : h.expandHome (.ofString text) = .ok p)
    (hhere : p.anchor = .here) (hbase : c.sourcePath = some base) :
    c.resolve h text = (h.expandHome (.ofString base)).map
      (fun dir => h.resolve ⟨dir.anchor, dir.names ++ p.names⟩) := by
  unfold resolve
  rw [hp, hbase]
  refine (if_pos hhere).trans ?_
  cases h.expandHome (.ofString base) with
  | error f => rfl
  | ok dir =>
    have hjoin : dir.join p = ⟨dir.anchor, dir.names ++ p.names⟩ := if_pos hhere
    exact congrArg (fun q => Except.ok (h.resolve q)) hjoin

/-- An argument is resolved to the real path of what it spells. -/
theorem resolve_eq_ok_iff {text : String} {r : Path} :
    c.resolve h text = .ok r ↔ ∃ p, c.Spells h text p ∧ r = h.resolve p := by
  constructor
  · intro hr
    cases hp : h.expandHome (.ofString text) with
    | error f =>
      rw [resolve, hp] at hr
      cases hr
    | ok p =>
      have hexpands := Host.expandHome_eq_ok_iff.mp hp
      by_cases hfree : c.sourcePath = none ∨ p.anchor ≠ .here
      · rw [resolve_of_whole hp hfree] at hr
        cases hr
        exact ⟨p, .whole hexpands hfree, rfl⟩
      · obtain ⟨hsource, hhere⟩ := not_or.mp hfree
        rw [not_not] at hhere
        obtain ⟨base, hbase⟩ := Option.ne_none_iff_exists'.mp hsource
        rw [resolve_of_here hp hhere hbase] at hr
        cases hdir : h.expandHome (.ofString base) with
        | error f =>
          rw [hdir] at hr
          cases hr
        | ok dir =>
          rw [hdir] at hr
          cases hr
          exact ⟨_, .below hexpands hhere hbase (Host.expandHome_eq_ok_iff.mp hdir), rfl⟩
  · rintro ⟨q, hq, rfl⟩
    cases hq with
    | whole hp hfree => exact resolve_of_whole (Host.expandHome_eq_ok_iff.mpr hp) hfree
    | below hp hhere hbase hdir =>
      rw [resolve_of_here (Host.expandHome_eq_ok_iff.mpr hp) hhere hbase,
        Host.expandHome_eq_ok_iff.mpr hdir]
      rfl

/-- An argument that spells nothing names the home directory of somebody who has none. -/
theorem resolve_eq_error {text : String} (hnone : ∀ p, ¬ c.Spells h text p) :
    c.resolve h text = .error .unknown := by
  cases hr : c.resolve h text with
  | error f => cases f; rfl
  | ok r =>
    obtain ⟨p, hp, _⟩ := resolve_eq_ok_iff.mp hr
    exact absurd hp (hnone p)

theorem Spells.slash_not_mem {text : String} {p : Path} (hp : c.Spells h text p) :
    ∀ n ∈ p.names, '/' ∉ n.toList := by
  cases hp with
  | whole hp _ => exact hp.slash_not_mem (Host.slash_not_mem_ofString text)
  | below hp _ _ hdir =>
    intro n hn
    rcases List.mem_append.mp hn with hn | hn
    · exact hdir.slash_not_mem (Host.slash_not_mem_ofString _) n hn
    · exact hp.slash_not_mem (Host.slash_not_mem_ofString text) n hn

/-- A path from the root is spelled by its text, wherever relative paths are read from. -/
theorem spells_absolute (c : Config) (h : Host) {text : String} {place : List String}
    (ht : Path.ofString text = .absolute place) : c.Spells h text (.absolute place) := by
  refine .whole ?_ (.inr nofun)
  rw [ht]
  exact .literal nofun

theorem allows_iff {p : Path} {place : List String} (hp : h.resolve p = .absolute place) :
    c.allows h p = true ↔ c.Permits place := by
  rw [allows, hp, Permits, Bool.or_eq_true, List.isEmpty_iff, List.any_eq_true]
  simp [Path.contains, Path.absolute]

/-- What it takes for an argument to be accepted. -/
theorem checkPath_eq_ok_iff {argument : String} {path : Option String} {p : String} :
    c.checkPath h argument path = .ok p ↔
      ∃ text r, path = some text ∧ Blank.isEmpty text = false ∧ '\x00' ∉ text.toList ∧
        c.resolve h text = .ok r ∧ (∃ e, h.stat p = .ok e) ∧ c.allows h r = true ∧ p = r.text := by
  cases path with
  | none => simp [checkPath]
  | some text =>
    simp only [Option.some.injEq, exists_and_left, exists_eq_left']
    rw [checkPath]
    by_cases hblank : Blank.isEmpty text = true
    · simp [hblank]
    by_cases hzero : text.toList.contains '\x00' = true
    · simp [hblank, List.contains_iff_mem.mp hzero]
    have hmem : '\x00' ∉ text.toList := fun hm => hzero (List.contains_iff_mem.mpr hm)
    rw [if_neg hblank, if_neg hzero]
    cases hr : c.resolve h text with
    | error f => simp
    | ok r =>
      dsimp only
      by_cases hexists : h.exists? r.text = .ok true
      · rw [hexists]
        obtain ⟨e, he⟩ := Host.exists?_eq_true_iff.mp hexists
        constructor
        · intro hok
          dsimp only at hok
          split_ifs at hok with hallowed
          cases hok
          exact ⟨by simpa using hblank, hmem, r, rfl, ⟨e, he⟩, hallowed, rfl⟩
        · rintro ⟨_, _, r', hr', _, hallowed, rfl⟩
          cases hr'
          exact if_pos hallowed
      · constructor
        · intro hok
          split at hok
          · cases hok
          · cases hok
          · rename_i htrue
            exact absurd htrue hexists
        · rintro ⟨_, _, r', hr', hstat, _, rfl⟩
          cases hr'
          exact absurd (Host.exists?_eq_true_iff.mpr hstat) hexists

/-- Whatever links there are, what is accepted leads to a place that may be read. -/
theorem locate_of_checkPath (hcwd : Canonical h.root h.cwd) {argument : String}
    {path : Option String} {p : String} (hp : c.checkPath h argument path = .ok p) :
    Path.isRooted p = true ∧ ∃ place, h.locate p = .ok place ∧ c.Permits place := by
  obtain ⟨text, r, _, _, _, hr, ⟨e, he⟩, hallowed, rfl⟩ := checkPath_eq_ok_iff.mp hp
  obtain ⟨q, hq, rfl⟩ := resolve_eq_ok_iff.mp hr
  obtain ⟨names, hnames⟩ : ∃ names, (h.resolve q).names = names := ⟨_, rfl⟩
  have hresolve : h.resolve q = .absolute names := hnames ▸ rfl
  rw [hresolve] at he hallowed ⊢
  have hslash : ∀ n ∈ names, '/' ∉ n.toList := by
    rw [← hnames]
    apply slash_not_mem_real
    · split_ifs
      · exact fun n hn => (hcwd.plain n hn).2.2
      · exact fun n hn => absurd hn List.not_mem_nil
    · exact hq.slash_not_mem
  have hrooted := Path.isRooted_text_absolute names
  obtain ⟨place, hplace, _⟩ := Host.stat_eq_ok_iff.mp he
  -- Only idle names get lost between the path and its text.
  have hleads := Host.leads_of_locate_rooted hrooted hplace
  rw [Path.names_ofString_text hslash, leads_filter] at hleads
  have hreal : h.LeadsTo (.absolute names) place := ⟨_, hleads⟩
  exact ⟨hrooted, place, hplace, (allows_iff hreal.resolve).mp hallowed⟩

/-- The text of a path from the root says something. -/
theorem isEmpty_text_absolute (place : List String) :
    Blank.isEmpty (Path.absolute place).text = false := by
  have hslash : Blank.isBlank '/' = false := by decide
  rw [Blank.isEmpty, Path.toList_text_absolute, List.all_cons, hslash]
  rfl

namespace RealPath

variable {text : String} {place : List String}

theorem resolve (hr : c.RealPath h text place) : c.resolve h text = .ok (.absolute place) := by
  obtain ⟨_, p, hp, hleads⟩ := hr
  exact resolve_eq_ok_iff.mpr ⟨p, hp, hleads.resolve.symm⟩

theorem canonical (hr : c.RealPath h text place) (hcwd : Canonical h.root h.cwd) :
    Canonical h.root place := by
  obtain ⟨_, p, hp, hleads⟩ := hr
  exact hleads.canonical hcwd hp.slash_not_mem

/-- The real path of an argument may be read if and only if it is permitted. -/
theorem allows_iff (hr : c.RealPath h text place) (hcwd : Canonical h.root h.cwd) :
    c.allows h (.absolute place) = true ↔ c.Permits place :=
  Config.allows_iff (Host.leadsTo_absolute (hr.canonical hcwd)).resolve

/-- A place without links that can be looked up is the real path of its own text. -/
theorem of_canonical {e : Entry} (hplace : Canonical h.root place)
    (he : h.stat (Path.absolute place).text = .ok e) :
    c.RealPath h (Path.absolute place).text place := by
  refine ⟨Host.zero_not_mem_of_stat he, .absolute place, ?_, Host.leadsTo_absolute hplace⟩
  exact c.spells_absolute h (Path.ofString_text_absolute hplace.plain)

/-- An argument is accepted if its real path exists and is permitted. -/
theorem checkPath (hr : c.RealPath h text place) (hcwd : Canonical h.root h.cwd)
    (hb : Blank.isEmpty text = false) (he : ∃ e, h.stat (Path.absolute place).text = .ok e)
    (hp : c.Permits place) (argument : String) :
    c.checkPath h argument (some text) = .ok (Path.absolute place).text := by
  apply checkPath_eq_ok_iff.mpr
  exact ⟨text, _, rfl, hb, hr.1, hr.resolve, he, (hr.allows_iff hcwd).mpr hp, rfl⟩

end RealPath

/-- Without loops, the real path of an argument is what it is resolved to. -/
theorem realPath_iff (hloops : LoopFree h.root) {text : String} {place : List String} :
    c.RealPath h text place ↔
      '\x00' ∉ text.toList ∧ c.resolve h text = .ok (.absolute place) := by
  constructor
  · exact fun hr => ⟨hr.1, hr.resolve⟩
  · rintro ⟨hzero, hr⟩
    obtain ⟨p, hp, hplace⟩ := resolve_eq_ok_iff.mp hr
    exact ⟨hzero, p, hp, (Host.leadsTo_iff hloops).mpr hplace.symm⟩

/-- A path argument that is accepted exists, is its own real path and may be read; it is accepted if its
real path exists and may be read; and one that spells nothing, because somebody has no home directory,
fails for that reason. -/
theorem checkPath_contained (c : Config) (h : Host) (hloops : LoopFree h.root)
    (hcwd : Canonical h.root h.cwd) (argument : String) (path : Option String) :
    (∀ p, c.checkPath h argument path = .ok p →
      ∃ text place e, path = some text ∧ c.RealPath h text place ∧
        p = (Path.absolute place).text ∧ Path.ofString p = .absolute place ∧
        h.stat p = .ok e ∧ h.root.get? place = some e ∧
        h.resolve (Path.ofString p) = Path.ofString p ∧ c.RealPath h p place ∧
        (∀ again, c.checkPath h again (some p) = .ok p) ∧ c.Permits place) ∧
    (∀ text place, path = some text → Blank.isEmpty text = false → c.RealPath h text place →
      (∃ e, h.stat (Path.absolute place).text = .ok e) → c.Permits place →
      c.checkPath h argument path = .ok (Path.absolute place).text) ∧
    ∀ text, path = some text → Blank.isEmpty text = false → '\x00' ∉ text.toList →
      (∀ p, ¬ c.Spells h text p) → c.checkPath h argument path = .error (.noHome .unknown) := by
  refine ⟨?_, ?_, ?_⟩
  · intro p hp
    obtain ⟨text, r, rfl, _, hzero, hresolve, ⟨e, he⟩, hallowed, rfl⟩ := checkPath_eq_ok_iff.mp hp
    obtain ⟨q, hq, rfl⟩ := resolve_eq_ok_iff.mp hresolve
    obtain ⟨place, hplace⟩ := Host.exists_leadsTo hloops q
    have hr : c.RealPath h text place := ⟨hzero, q, hq, hplace⟩
    rw [hplace.resolve] at he hallowed ⊢
    -- What was found has no links left, so it is its own real path and is looked up literally.
    have hcanonical := hr.canonical hcwd
    have hself : Path.ofString (Path.absolute place).text = .absolute place :=
      Path.ofString_text_absolute hcanonical.plain
    have hfixed : h.resolve (.absolute place) = .absolute place :=
      (Host.leadsTo_absolute hcanonical).resolve
    have hget : h.root.get? place = some e := by
      have hget := Host.get?_resolve_of_stat he
      rwa [hself, hfixed] at hget
    have hr' : c.RealPath h (Path.absolute place).text place := RealPath.of_canonical hcanonical he
    have hpermits := (hr.allows_iff hcwd).mp hallowed
    have hagain := hr'.checkPath hcwd (isEmpty_text_absolute place) ⟨e, he⟩ hpermits
    exact ⟨text, place, e, rfl, hr, rfl, hself, he, hget, by rw [hself, hfixed], hr', hagain,
      hpermits⟩
  · rintro text place rfl hb hr he hp
    exact hr.checkPath hcwd hb he hp argument
  · rintro text rfl hb hzero hnone
    have hcontains : ¬ text.toList.contains '\x00' = true := fun hc => hzero (List.contains_iff_mem.mp hc)
    rw [Config.checkPath, hb, if_neg Bool.false_ne_true, if_neg hcontains, resolve_eq_error hnone]

/-- Two projects side by side. The home directory of a user links to the first one, through another
link. -/
def siblings : Host where
  root := .directory
    [("srv", .directory
      [("project", .directory [("a.tsx", .file [] 0)]),
        ("project-other", .directory [("b.tsx", .file [] 0)]),
        ("current", .link "project")]),
      ("home", .directory [("work", .link "/srv/./current/")])]
  cwd := ["srv"]
  home := "/"
  users := [("ada", "/home/")]

theorem siblings_loopFree : LoopFree siblings.root :=
  loopFree_of_isFollowed (k := 2) (by decide)

/-- Only the first project may be read; relative paths are read from the link to it. -/
def firstOnly : Config where
  sourcePath := some "~ada/work"
  allowedRoots := [.absolute ["srv", "project"]]

theorem checkPath_contained_siblings :
    LoopFree siblings.root ∧ Canonical siblings.root siblings.cwd ∧
    firstOnly.checkPath siblings "path" (some "../current//./a.tsx") = .ok "/srv/project/a.tsx" ∧
    (∀ p, firstOnly.checkPath siblings "path" (some "../project-other/b.tsx") ≠ .ok p) ∧
    firstOnly.checkPath siblings "path" (some "~bob/a.tsx") = .error (.noHome .unknown) := by
  have hcwd : Canonical siblings.root siblings.cwd := by decide
  refine ⟨siblings_loopFree, hcwd, ?_, ?_, ?_⟩
  · have hreal : firstOnly.RealPath siblings "../current//./a.tsx" ["srv", "project", "a.tsx"] :=
      (realPath_iff siblings_loopFree).mpr ⟨by decide, by decide⟩
    have hstat : ∃ e, siblings.stat "/srv/project/a.tsx" = .ok e :=
      Host.exists?_eq_true_iff.mp (by decide)
    have hpermits : firstOnly.Permits ["srv", "project", "a.tsx"] :=
      Or.inr ⟨_, List.mem_singleton_self _, rfl, ["a.tsx"], rfl⟩
    exact (checkPath_contained firstOnly siblings siblings_loopFree hcwd "path" _).2.1 _ _ rfl
      (by decide) hreal hstat hpermits
  · intro p hp
    obtain ⟨text, place, _, htext, hreal, _, _, _, _, _, _, _, hpermits⟩ :=
      (checkPath_contained firstOnly siblings siblings_loopFree hcwd "path" _).1 p hp
    cases htext
    -- The real path starts with the text of the allowed directory, but not with its names.
    have hplace : firstOnly.resolve siblings "../project-other/b.tsx" =
        .ok (.absolute ["srv", "project-other", "b.tsx"]) := by decide
    cases hreal.resolve.symm.trans hplace
    revert hpermits
    simp [Permits, firstOnly, Path.absolute]
  · refine (checkPath_contained firstOnly siblings siblings_loopFree hcwd "path" _).2.2 _ rfl
      (by decide) (by decide) ?_
    intro p hp
    have hknown : firstOnly.resolve siblings "~bob/a.tsx" = .ok (siblings.resolve p) :=
      resolve_eq_ok_iff.mpr ⟨p, hp, rfl⟩
    have hunknown : firstOnly.resolve siblings "~bob/a.tsx" = .error .unknown := by decide
    cases hunknown.symm.trans hknown

end Config
end PropAtlas
