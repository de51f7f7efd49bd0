import PropAtlas.Proofs.FileSystem.Discovery
import PropAtlas.Proofs.FileSystem.Places
import PropAtlas.Proofs.FileSystem.Suffix
import Mathlib.Data.List.Sort

/-! The search for source files finds exactly the files it should. Names lead to a file that is found
if they go through directories that are looked into, are no more than the depth allows, and end at an
entry with the right suffix that leads to a regular file. No file is found twice. -/

namespace PropAtlas.Host
open FileSystem

variable {h : Host}

/-- Whether a search in the directory that `root` leads to, at the place `top`, should find the entry
`name` below the directories `dirs`. -/
structure Discovers (h : Host) (o : Scope) (root : String) (top dirs : List String)
    (name : String) : Prop where
  /-- On the way there are directories, not links to them. -/
  directories : ∀ above, above <+: dirs → ∃ ds, h.root.get? (top ++ above) = some (.directory ds)
  unskipped : ∀ n ∈ dirs, n ∉ o.skipped
  entry : ∃ e, h.root.get? (top ++ (dirs ++ [name])) = some e
  /-- Through links, the entry leads to a regular file. -/
  regular : ∃ content modified,
    h.stat (extendAll root (dirs ++ [name])) = .ok (.file content modified)
  suffix : ∃ ext ∈ o.suffixes, Path.HasSuffix name ext
  depth : ∀ d, o.depth = some d → ((dirs ++ [name]).length : Int) ≤ d

section

variable {o : Scope} {root : String} {top dirs : List String} {name : String}
  {es : List (String × Entry)}

theorem Discovers.plain (hd : h.Discovers o root top dirs name)
    (hes : (Entry.directory es).WellFormed) (hdir : h.root.get? top = some (.directory es)) :
    ∀ n ∈ dirs ++ [name], Path.IsPlain n := by
  obtain ⟨e, he⟩ := hd.entry
  rw [Entry.get?_append, hdir] at he
  exact hes.plain_of_get? he

/-- There is no link on the way to what is found, so it stands where its names say, unless it is
itself a link. -/
theorem Discovers.locate (hd : h.Discovers o root top dirs name)
    (hes : (Entry.directory es).WellFormed) (htop : h.locate root = .ok top)
    (hdir : h.root.get? top = some (.directory es))
    (hlink : ∀ target, h.root.get? (top ++ (dirs ++ [name])) ≠ some (.link target)) :
    h.locate (extendAll root (dirs ++ [name])) = .ok (top ++ (dirs ++ [name])) := by
  obtain ⟨content, modified, hstat⟩ := hd.regular
  obtain ⟨place, hplace, _⟩ := stat_eq_ok_iff.mp hstat
  have hplain := hd.plain hes hdir
  have hdirect : Leads h.root 0 top (dirs ++ [name]) (top ++ (dirs ++ [name])) := by
    apply leads_direct hplain
    intro above hprefix _ target hat
    rcases List.prefix_concat_iff.mp hprefix with rfl | habove
    · exact hlink target hat
    · obtain ⟨ds, hds⟩ := hd.directories above habove
      rw [hds] at hat
      cases hat
  rw [hplace, hdirect.unique (leads_of_locate_extendAll hplain htop hplace)]

theorem Discovers.leaf (hd : h.Discovers o root top dirs name)
    (hes : (Entry.directory es).WellFormed) (htop : h.locate root = .ok top)
    (hdir : h.root.get? top = some (.directory es)) : Leaf es (dirs ++ [name]) := by
  obtain ⟨e, he⟩ := hd.entry
  refine (leaf_iff hes hdir).mpr ⟨hd.directories, e, he, ?_⟩
  -- A directory would be looked up where it stands, and there is a regular file.
  rintro ds rfl
  have hplace := hd.locate hes htop hdir (by simp [he])
  obtain ⟨content, modified, hstat⟩ := hd.regular
  obtain ⟨place, hplace', hfile⟩ := stat_eq_ok_iff.mp hstat
  cases hplace.symm.trans hplace'
  rw [he] at hfile
  cases hfile

theorem wants_iff (hname : Path.IsPlain name) :
    o.wants name = true ↔ ∃ ext ∈ o.suffixes, Path.HasSuffix name ext := by
  have hcontains : o.wants name = true ↔ Path.suffix name ∈ o.suffixes := by simp [Scope.wants]
  rw [hcontains]
  constructor
  · intro hmem
    exact ⟨_, hmem, (Path.suffix_eq_iff hname).mp rfl⟩
  · rintro ⟨ext, hmem, hsuffix⟩
    rw [(Path.suffix_eq_iff hname).mpr hsuffix]
    exact hmem

theorem mem_foundBelow_iff (hes : (Entry.directory es).WellFormed) (htop : h.locate root = .ok top)
    (hdir : h.root.get? top = some (.directory es)) {file : String} :
    file ∈ h.foundBelow o root es ↔
      ∃ dirs name, file = extendAll root (dirs ++ [name]) ∧ h.Discovers o root top dirs name := by
  have hmem : file ∈ h.foundBelow o root es ↔
      (∃ names, (names ∈ leaves o 1 es ∧ o.wants (names.getLast?.getD "") = true) ∧
        extendAll root names = file) ∧ h.isFile file = true := by
    simp [foundBelow]
  have hlevel (dirs : List String) (name : String) :
      o.admits (1 + dirs.length) = true ↔
        ∀ d, o.depth = some d → ((dirs ++ [name]).length : Int) ≤ d := by
    rw [Scope.admits_iff, List.length_append, List.length_singleton, Nat.add_comm]
  rw [hmem]
  constructor
  · rintro ⟨⟨names, ⟨hnames, hwanted⟩, rfl⟩, hfile⟩
    obtain ⟨hleaf, hskip, hadmits⟩ := mem_leaves_iff.mp hnames
    obtain ⟨dirs, name, rfl⟩ : ∃ dirs name, names = dirs ++ [name] :=
      ⟨_, _, (List.dropLast_append_getLast hleaf.ne_nil).symm⟩
    rw [List.dropLast_concat] at hskip hadmits
    rw [List.getLast?_concat] at hwanted
    have hplain := hleaf.plain hes name (List.mem_append_right _ (List.mem_singleton_self _))
    obtain ⟨hdirs, e, he, _⟩ := (leaf_iff hes hdir).mp hleaf
    exact ⟨dirs, name, rfl, hdirs, hskip, ⟨e, he⟩, isFile_iff.mp hfile, (wants_iff hplain).mp hwanted,
      (hlevel dirs name).mp hadmits⟩
  · rintro ⟨dirs, name, rfl, hd⟩
    refine ⟨⟨dirs ++ [name], ⟨mem_leaves_iff.mpr ⟨hd.leaf hes htop hdir, ?_, ?_⟩, ?_⟩, rfl⟩,
      isFile_iff.mpr hd.regular⟩
    · rw [List.dropLast_concat]
      exact hd.unskipped
    · rw [List.dropLast_concat]
      exact (hlevel dirs name).mpr hd.depth
    · have hplain := hd.plain hes hdir name (List.mem_append_right _ (List.mem_singleton_self _))
      rw [List.getLast?_concat]
      exact (wants_iff hplain).mpr hd.suffix

theorem nodup_foundBelow (hes : (Entry.directory es).WellFormed) :
    (h.foundBelow o root es).Nodup := by
  have hfound : (((leaves o 1 es).filter (fun names => o.wants (names.getLast?.getD ""))).map
      (extendAll root)).Nodup := by
    refine ((nodup_leaves hes).filter _).map_on ?_
    intro names hnames others hothers heq
    have hplain {ns : List String} (hns : ns ∈ (leaves o 1 es).filter
        (fun names => o.wants (names.getLast?.getD ""))) : ∀ n ∈ ns, Path.IsPlain n :=
      (leaf_of_mem_leaves (List.mem_of_mem_filter hns)).plain hes
    exact extendAll_inj (hplain hnames) (hplain hothers) heq
  exact hfound.filter _

/-- What is found, in the order of the paths. -/
theorem sourceFiles_free (hroot : h.stat root = .ok (.directory es)) (hfree : o.bounded = false) :
    h.sourceFiles o root =
      .ok ((h.foundBelow o root es).mergeSort (fun a b => decide (a ≤ b))) := by
  rw [sourceFiles, hroot]
  exact filesBelow_free hfree

/-- Files are found in the order of their paths, none of them twice. -/
theorem mergeSort_increasing {files : List String} (hnodup : files.Nodup) :
    (files.mergeSort (fun a b => decide (a ≤ b))).Pairwise (· < ·) := by
  have hne : (files.mergeSort (fun a b => decide (a ≤ b))).Pairwise (· ≠ ·) :=
    (List.mergeSort_perm _ _).nodup_iff.mpr hnodup
  refine ((mergeSort_sorted files).and hne).imp ?_
  intro a b hab
  exact lt_of_le_of_ne hab.1 hab.2

/-- A deeper search finds what a search finds, perhaps with more in between. -/
theorem foundBelow_deeper (hes : (Entry.directory es).WellFormed) (htop : h.locate root = .ok top)
    (hdir : h.root.get? top = some (.directory es))
    {deeper : Option Int} (hdeeper : ∀ b, deeper = some b → ∃ a, o.depth = some a ∧ a ≤ b) :
    ((h.foundBelow o root es).mergeSort (fun a b => decide (a ≤ b))).Sublist
      ((h.foundBelow { o with depth := deeper } root es).mergeSort (fun a b => decide (a ≤ b))) := by
  have hsubset : h.foundBelow o root es ⊆ h.foundBelow { o with depth := deeper } root es := by
    intro file hfile
    obtain ⟨dirs, name, rfl, hd⟩ := (mem_foundBelow_iff hes htop hdir).mp hfile
    refine (mem_foundBelow_iff hes htop hdir).mpr ⟨dirs, name, rfl, ?_⟩
    refine ⟨hd.directories, hd.unskipped, hd.entry, hd.regular, hd.suffix, ?_⟩
    intro b hb
    obtain ⟨a, ha, hab⟩ := hdeeper b hb
    exact (hd.depth a ha).trans hab
  have hsub := List.subperm_of_subset (nodup_foundBelow hes) hsubset
  apply List.sublist_of_subperm_of_pairwise _ (mergeSort_sorted _) (mergeSort_sorted _)
  exact (List.mergeSort_perm _ _).subperm.trans (hsub.trans (List.mergeSort_perm _ _).symm.subperm)

end

/-- A search that is not held inside a project finds, in strictly increasing order, exactly the files
that names lead to through directories that are not skipped, with a suffix that is asked for and no
deeper than allowed; and the deeper it may go, the more it finds. -/
theorem sourceFiles_exact (h : Host) (o : Scope) (root : String) (es : List (String × Entry))
    (hwf : h.root.WellFormed) (hroot : h.stat root = .ok (.directory es))
    (hfree : o.bounded = false) :
    ∃ top files, h.locate root = .ok top ∧ h.root.get? top = some (.directory es) ∧
      h.sourceFiles o root = .ok files ∧ files.Pairwise (· < ·) ∧
      (∀ file, file ∈ files ↔ ∃ dirs name, file = extendAll root (dirs ++ [name]) ∧
        h.Discovers o root top dirs name) ∧
      (∀ dirs name, (∀ n ∈ dirs ++ [name], Path.IsPlain n) →
        (extendAll root (dirs ++ [name]) ∈ files ↔ h.Discovers o root top dirs name)) ∧
      ∀ deeper : Option Int, (∀ b, deeper = some b → ∃ a, o.depth = some a ∧ a ≤ b) →
        ∃ more, h.sourceFiles { o with depth := deeper } root = .ok more ∧ files.Sublist more := by
  obtain ⟨top, htop, hdir⟩ := stat_eq_ok_iff.mp hroot
  have hes := hwf.of_get? hdir
  have hmem (file : String) :
      file ∈ (h.foundBelow o root es).mergeSort (fun a b => decide (a ≤ b)) ↔ ∃ dirs name,
        file = extendAll root (dirs ++ [name]) ∧ h.Discovers o root top dirs name := by
    rw [List.mem_mergeSort]
    exact mem_foundBelow_iff hes htop hdir
  refine ⟨top, _, htop, hdir, sourceFiles_free hroot hfree, mergeSort_increasing (nodup_foundBelow hes),
    hmem, ?_, ?_⟩
  · intro dirs name hplain
    rw [hmem]
    constructor
    · rintro ⟨dirs', name', heq, hd⟩
      have hsame := extendAll_inj hplain (hd.plain hes hdir) heq
      obtain ⟨rfl, hname⟩ := List.append_inj' hsame rfl
      cases hname
      exact hd
    · exact fun hd => ⟨dirs, name, rfl, hd⟩
  · intro deeper hdeeper
    exact ⟨_, sourceFiles_free hroot hfree, foundBelow_deeper hes htop hdir hdeeper⟩

/-- A directory with sources, build results, a link to a file and a link to a directory. -/
def workshop : Host where
  root := .directory
    [("p", .directory
      [("a.tsx", .file [] 0), ("dist", .directory [("b.js", .file [] 0)]),
        ("src", .directory [("L.JS", .link "../a.tsx"), ("up", .link "..")])])]

theorem sourceFiles_exact_workshop :
    workshop.root.WellFormed ∧ (∃ es, workshop.stat "/p" = .ok (.directory es)) ∧
    ∃ files, workshop.sourceFiles { depth := some 2 } "/p" = .ok files ∧
      files.Pairwise (· < ·) ∧ "/p/src/L.JS" ∈ files ∧ "/p/dist/b.js" ∉ files ∧
      "/p/src/up/a.tsx" ∉ files := by
  have hwf : workshop.root.WellFormed := by
    simp only [workshop, Entry.WellFormed, Entry.WellFormedOf, Table.keys, List.map]
    decide
  have hroot : workshop.stat "/p" = .ok (.directory
      [("a.tsx", .file [] 0), ("dist", .directory [("b.js", .file [] 0)]),
        ("src", .directory [("L.JS", .link "../a.tsx"), ("up", .link "..")])]) := rfl
  obtain ⟨top, files, htop, _, hfiles, hincreasing, _, hexact, _⟩ :=
    sourceFiles_exact workshop { depth := some 2 } "/p" _ hwf hroot rfl
  have hplace : workshop.locate "/p" = .ok ["p"] := by decide
  cases hplace.symm.trans htop
  have hlinked : extendAll "/p" (["src"] ++ ["L.JS"]) = "/p/src/L.JS" := by
    rw [extendAll_eq]
    decide
  have hbuilt : extendAll "/p" (["dist"] ++ ["b.js"]) = "/p/dist/b.js" := by
    rw [extendAll_eq]
    decide
  have hbehind : extendAll "/p" (["src", "up"] ++ ["a.tsx"]) = "/p/src/up/a.tsx" := by
    rw [extendAll_eq]
    decide
  rw [← hlinked, ← hbuilt, ← hbehind]
  refine ⟨hwf, ⟨_, hroot⟩, files, hfiles, hincreasing, ?_, ?_, ?_⟩
  · refine (hexact ["src"] "L.JS" (by decide)).mpr ⟨?_, by decide, ⟨_, rfl⟩, ?_, ?_, ?_⟩
    · intro above habove
      rcases List.prefix_cons_iff.mp habove with rfl | ⟨rest, rfl, hrest⟩
      · exact ⟨_, rfl⟩
      · cases List.prefix_nil.mp hrest
        exact ⟨_, rfl⟩
    · rw [hlinked]
      exact isFile_iff.mp (by decide)
    · exact ⟨".js", by decide, (Path.suffix_eq_iff (by decide)).mp (by decide)⟩
    · intro d hd
      cases hd
      decide
  · intro hmem
    exact ((hexact ["dist"] "b.js" (by decide)).mp hmem).unskipped "dist" (by decide) (by decide)
  · intro hmem
    obtain ⟨ds, hds⟩ := ((hexact ["src", "up"] "a.tsx" (by decide)).mp hmem).directories
      ["src", "up"] List.prefix_rfl
    cases hds

end PropAtlas.Host
