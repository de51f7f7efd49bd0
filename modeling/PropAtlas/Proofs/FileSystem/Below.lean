import PropAtlas.Proofs.FileSystem.Discovery
import PropAtlas.Proofs.FileSystem.Markers
import PropAtlas.Proofs.FileSystem.RealPath

/-! What a directory gives access to. The source files that are found below a directory stand below
it, or they are where a link below it leads. If the search stays inside the project, such a link leads
to a place in the same project. -/

namespace PropAtlas
namespace FileSystem

variable {root : Entry}

/-! ### Names in directories -/

namespace Entry

mutual

/-- Whether the names in every directory are plain and differ. -/
def WellFormed : Entry → Prop
  | .directory es => (Table.keys es).Nodup ∧ WellFormedOf es
  | _ => True

def WellFormedOf : List (String × Entry) → Prop
  | [] => True
  | (n, e) :: es => Path.IsPlain n ∧ e.WellFormed ∧ WellFormedOf es

end

theorem wellFormedOf_iff {es : List (String × Entry)} :
    WellFormedOf es ↔ ∀ n e, (n, e) ∈ es → Path.IsPlain n ∧ e.WellFormed := by
  induction es with
  | nil => simp [WellFormedOf]
  | cons me es ih =>
    obtain ⟨m, e⟩ := me
    simp only [WellFormedOf, ih, List.mem_cons, Prod.mk.injEq]
    constructor
    · rintro ⟨hm, he, hes⟩ n c (⟨rfl, rfl⟩ | hmem)
      · exact ⟨hm, he⟩
      · exact hes n c hmem
    · intro h
      have hme := h m e (Or.inl ⟨rfl, rfl⟩)
      exact ⟨hme.1, hme.2, fun n c hmem => h n c (Or.inr hmem)⟩

theorem WellFormed.of_get? {e c : Entry} {place : List String} (h : e.WellFormed)
    (hc : e.get? place = some c) : c.WellFormed := by
  induction place generalizing e with
  | nil =>
    cases hc
    exact h
  | cons n place ih =>
    obtain ⟨d, hd, hplace⟩ := Option.bind_eq_some_iff.mp hc
    cases e with
    | directory es =>
      rw [WellFormed] at h
      exact ih (wellFormedOf_iff.mp h.2 n d (Table.mem_of_get? hd)).2 hplace
    | file content modified => cases hd
    | link target => cases hd
    | device => cases hd

end Entry

/-! ### Leaves -/

/-- Whether names lead through directories to something else. -/
inductive Leaf : List (String × Entry) → List String → Prop where
  | entry {es : List (String × Entry)} {n : String} {e : Entry} (hmem : (n, e) ∈ es)
      (hdir : ∀ ds, e ≠ .directory ds) : Leaf es [n]
  | inside {es ds : List (String × Entry)} {n : String} {names : List String}
      (hmem : (n, .directory ds) ∈ es) (hleaf : Leaf ds names) : Leaf es (n :: names)

theorem Leaf.mono {es ds : List (String × Entry)} {names : List String} (h : Leaf es names)
    (hsub : es ⊆ ds) : Leaf ds names := by
  cases h with
  | entry hmem hdir => exact .entry (hsub hmem) hdir
  | inside hmem hleaf => exact .inside (hsub hmem) hleaf

theorem leaf_of_mem_leaves {o : Scope} {level : Nat} {es : List (String × Entry)}
    {names : List String} (h : names ∈ leaves o level es) : Leaf es names := by
  fun_induction leaves o level es generalizing names with
  | case1 level => exact absurd h List.not_mem_nil
  | case2 level n ds rest hdirs hrest =>
    rcases List.mem_append.mp h with h | h
    · split_ifs at h
      · exact absurd h List.not_mem_nil
      · obtain ⟨inner, hinner, rfl⟩ := List.mem_map.mp h
        exact .inside List.mem_cons_self (hdirs hinner)
    · exact (hrest h).mono (List.subset_cons_self _ _)
  | case3 level n e rest hdir hrest =>
    rcases List.mem_append.mp h with h | h
    · split_ifs at h
      · cases List.mem_singleton.mp h
        exact .entry List.mem_cons_self hdir
      · exact absurd h List.not_mem_nil
    · exact (hrest h).mono (List.subset_cons_self _ _)

theorem Leaf.plain {es : List (String × Entry)} {names : List String} (h : Leaf es names)
    (hes : (Entry.directory es).WellFormed) : ∀ n ∈ names, Path.IsPlain n := by
  induction h with
  | entry hmem _ =>
    rw [Entry.WellFormed] at hes
    intro m hm
    exact List.mem_singleton.mp hm ▸ (Entry.wellFormedOf_iff.mp hes.2 _ _ hmem).1
  | inside hmem _ ih =>
    rw [Entry.WellFormed] at hes
    have hentry := Entry.wellFormedOf_iff.mp hes.2 _ _ hmem
    intro m hm
    rcases List.mem_cons.mp hm with rfl | hm
    · exact hentry.1
    · exact ih hentry.2 m hm

/-! ### Places -/

/-- Whether a link below a place leads to another one. -/
def LinkedBelow (root : Entry) (top place : List String) : Prop :=
  ∃ dir n target, top <+: dir ∧ root.get? (dir ++ [n]) = some (.link target) ∧
    ∃ d, Leads root d (linkStart dir target) (Path.steps target) place

theorem LinkedBelow.mono {top above place : List String} (h : LinkedBelow root top place)
    (ha : above <+: top) : LinkedBelow root above place := by
  obtain ⟨dir, n, target, htop, hlink⟩ := h
  exact ⟨dir, n, target, ha.trans htop, hlink⟩

/-- A leaf of a directory leads to its own place, or on from there if it is a link. -/
theorem Leaf.reaches {es : List (String × Entry)} {names : List String} (h : Leaf es names)
    {top place : List String} (hes : (Entry.directory es).WellFormed)
    (htop : root.get? top = some (.directory es)) {d : Nat} (hleads : Leads root d top names place) :
    top <+: place ∨ LinkedBelow root top place := by
  have hentry {top : List String} {es : List (String × Entry)} {n : String} {e : Entry}
      (hes : (Entry.directory es).WellFormed) (htop : root.get? top = some (.directory es))
      (hmem : (n, e) ∈ es) :
      root.get? (top ++ [n]) = some e ∧ Path.IsPlain n ∧ e.WellFormed := by
    rw [Entry.WellFormed] at hes
    refine ⟨?_, Entry.wellFormedOf_iff.mp hes.2 n e hmem⟩
    rw [Entry.get?_append, htop]
    simpa [Entry.get?, Entry.listing] using (Table.get?_eq_some_iff hes.1).mpr hmem
  induction h generalizing top with
  | entry hmem hdir =>
    obtain ⟨hget, hplain, _⟩ := hentry hes htop hmem
    cases hleads with
    | idle hn _ => simp [hplain.1] at hn
    | up _ => exact absurd rfl hplain.2.1
    | enter _ _ _ hrest =>
      cases hrest
      exact Or.inl (List.prefix_append _ _)
    | follow _ _ hlink htarget hrest =>
      cases hrest
      exact Or.inr ⟨top, _, _, List.prefix_rfl, hlink, _, htarget⟩
  | inside hmem hleaf ih =>
    obtain ⟨hget, hplain, hwf⟩ := hentry hes htop hmem
    cases hleads with
    | idle hn _ => simp [hplain.1] at hn
    | up _ => exact absurd rfl hplain.2.1
    | enter _ _ _ hrest =>
      rcases ih hwf hget hrest with hbelow | hlinked
      · exact Or.inl ((List.prefix_append _ _).trans hbelow)
      · exact Or.inr (hlinked.mono (List.prefix_append _ _))
    | follow _ _ hlink _ _ =>
      rw [hget] at hlink
      cases hlink

/-! ### Texts -/

theorem names_extendAll (text : String) {names : List String} (h : ∀ n ∈ names, Path.IsPlain n) :
    (Path.ofString (extendAll text names)).names = (Path.ofString text).names ++ names := by
  induction names generalizing text with
  | nil => exact (List.append_nil _).symm
  | cons n names ih =>
    have hstep := Path.names_ofString_extend text (h n List.mem_cons_self)
    have hcons : extendAll text (n :: names) = extendAll (Path.extend text n) names := rfl
    rw [hcons, ih _ (List.forall_mem_of_forall_mem_cons h), hstep, List.append_assoc,
      List.singleton_append]

theorem isRooted_extendAll {text : String} (h : Path.isRooted text = true) (names : List String) :
    Path.isRooted (extendAll text names) = true := by
  induction names generalizing text with
  | nil => exact h
  | cons n names ih => exact ih (Path.isRooted_extend h)

end FileSystem

namespace Host
open FileSystem

variable {h : Host}

/-- Whether a search below one place may read the file at another: it is at or below that place, or a
link leads there. A search that stays inside the project follows the link only if a directory with a
project marker is above both. -/
def Reaches (h : Host) (bounded : Bool) (top place : List String) : Prop :=
  top <+: place ∨ LinkedBelow h.root top place ∧
    (bounded = true → ∃ dir, h.Marked dir ∧ dir <+: top ∧ dir <+: place)

theorem Reaches.mono {bounded : Bool} {top above place : List String}
    (hr : h.Reaches bounded top place) (ha : above <+: top) : h.Reaches bounded above place := by
  by_cases hbelow : above <+: place
  · exact Or.inl hbelow
  rcases hr with hr | ⟨hlinked, hproject⟩
  · exact Or.inl (ha.trans hr)
  · refine Or.inr ⟨hlinked.mono ha, ?_⟩
    intro hb
    obtain ⟨dir, hmarker, htop, hplace⟩ := hproject hb
    -- Of two directories above the same place, one is above the other.
    rcases List.prefix_or_prefix_of_prefix htop ha with hdir | hdir
    · exact ⟨dir, hmarker, hdir, hplace⟩
    · exact absurd (hdir.trans hplace) hbelow

theorem projectRoots_of_locate {path : String} {top : List String} (htop : h.locate path = .ok top) :
    h.projectRoots path =
      (h.markedPlaces ((Path.ancestors top).take markerLevels)).map (List.map Path.absolute) := by
  have hnames : (h.resolve (Path.ofString path)).names = top := by
    rw [resolve_of_locate htop]
    rfl
  unfold projectRoots
  dsimp only
  rw [hnames]
  cases h.markedPlaces ((Path.ancestors top).take markerLevels) with
  | error f => rfl
  | ok marked => rfl

theorem projectRoots_eq_ok {path : String} {top : List String} {roots : List Path}
    (htop : h.locate path = .ok top) (hroots : h.projectRoots path = .ok roots) :
    ∃ marked, h.markedPlaces ((Path.ancestors top).take markerLevels) = .ok marked ∧
      roots = marked.map Path.absolute := by
  rw [projectRoots_of_locate htop] at hroots
  cases hmarked : h.markedPlaces ((Path.ancestors top).take markerLevels) with
  | error f =>
    rw [hmarked] at hroots
    cases hroots
  | ok marked =>
    rw [hmarked] at hroots
    exact ⟨marked, rfl, (Except.ok.inj hroots).symm⟩

/-- A file in the project of a path is below that path, or a directory with a marker is above both. -/
theorem marker_of_isInProject {path file : String} {top place : List String} {roots : List Path}
    (htop : h.locate path = .ok top) (hplace : h.locate file = .ok place)
    (hroots : h.projectRoots path = .ok roots) (hin : h.isInProject file roots path = true) :
    top <+: place ∨ ∃ dir, h.Marked dir ∧ dir <+: top ∧ dir <+: place := by
  have hcontains {names : List String}
      (hc : (Path.absolute names).contains (.absolute place) = true) : names <+: place := by
    simpa [Path.contains, Path.absolute] using hc
  obtain ⟨marked, hmarked, rfl⟩ := projectRoots_eq_ok htop hroots
  unfold isInProject at hin
  rw [resolve_of_locate htop, resolve_of_locate hplace, List.head?_map] at hin
  cases hhead : marked.head? with
  | none =>
    rw [hhead] at hin
    exact Or.inl (hcontains hin)
  | some dir =>
    rw [hhead] at hin
    obtain ⟨habove, hmarker⟩ := (mem_markedPlaces_iff hmarked).mp (List.mem_of_head? hhead)
    obtain ⟨k, _, rfl⟩ := List.mem_map.mp (List.mem_of_mem_take habove)
    exact Or.inr ⟨_, hmarker, List.take_prefix _ _, hcontains hin⟩

/-- A source file is the path that was looked at, or a leaf of the directory there. -/
theorem mem_sourceFiles {o : Scope} {path file : String} {files : List String}
    (hs : h.sourceFiles o path = .ok files) (hfile : file ∈ files) :
    file = path ∨ ∃ es names, h.stat path = .ok (.directory es) ∧ Leaf es names ∧
      file = extendAll path names ∧
      (o.bounded = true → ∃ roots, h.projectRoots path = .ok roots ∧
        h.isInProject file roots path = true) := by
  unfold sourceFiles at hs
  split at hs
  · cases hs
    exact absurd hfile List.not_mem_nil
  · cases hs
  · cases hs
    split_ifs at hfile
    · exact Or.inl (List.mem_singleton.mp hfile)
    · exact absurd hfile List.not_mem_nil
  · rename_i es hstat
    -- Files are dropped and sorted after they were found, so each of them was found.
    have hfound : file ∈ h.foundBelow o path es ∧
        (o.bounded = true → ∃ roots, h.projectRoots path = .ok roots ∧
          h.isInProject file roots path = true) := by
      cases hb : o.bounded with
      | false =>
        rw [filesBelow_free hb] at hs
        cases hs
        exact ⟨List.mem_mergeSort.mp hfile, nofun⟩
      | true =>
        obtain ⟨roots, hroots, rfl⟩ := (filesBelow_bounded_iff hb).mp hs
        obtain ⟨hmem, hin⟩ := List.mem_filter.mp (List.mem_mergeSort.mp hfile)
        exact ⟨hmem, fun _ => ⟨roots, hroots, hin⟩⟩
    obtain ⟨names, hnames, rfl⟩ := List.mem_map.mp (List.mem_of_mem_filter hfound.1)
    exact Or.inr ⟨es, names, hstat, leaf_of_mem_leaves (List.mem_of_mem_filter hnames), rfl,
      hfound.2⟩
  · cases hs
    exact absurd hfile List.not_mem_nil

/-- The source files of a path are reached from where the path leads. -/
theorem reaches_of_mem_sourceFiles {o : Scope} {path file : String} {files top place : List String}
    (hwf : h.root.WellFormed) (hpath : Path.isRooted path = true) (htop : h.locate path = .ok top)
    (hs : h.sourceFiles o path = .ok files) (hfile : file ∈ files)
    (hplace : h.locate file = .ok place) : h.Reaches o.bounded top place := by
  rcases mem_sourceFiles hs hfile with rfl | ⟨es, names, hstat, hleaf, rfl, hproject⟩
  · rw [htop] at hplace
    cases hplace
    exact Or.inl List.prefix_rfl
  · obtain ⟨top', htop', hdir⟩ := stat_eq_ok_iff.mp hstat
    rw [htop] at htop'
    cases htop'
    have hes := hwf.of_get? hdir
    -- Both texts are read from the root, so the way to the file goes through the directory.
    have hway := leads_of_locate_rooted hpath htop
    have hlong := leads_of_locate_rooted (isRooted_extendAll hpath names) hplace
    rw [names_extendAll path (hleaf.plain hes)] at hlong
    obtain ⟨mid, hmid, hrest⟩ := leads_append.mp hlong
    cases hmid.unique hway
    by_cases hbelow : top <+: place
    · exact Or.inl hbelow
    · have hlinked := (hleaf.reaches hes hdir hrest).resolve_left hbelow
      refine Or.inr ⟨hlinked, fun hb => ?_⟩
      obtain ⟨roots, hroots, hin⟩ := hproject hb
      exact (marker_of_isInProject htop hplace hroots hin).resolve_left hbelow

end Host
end PropAtlas
