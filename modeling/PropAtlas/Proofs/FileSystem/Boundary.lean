import PropAtlas.Proofs.FileSystem.Walk

/-! A search that is held inside a project. It looks upward for project markers, and if one of them
cannot be looked up because a name is too long, it fails. Otherwise it finds what a free search finds, in
the same order, but for the files whose real path is outside: those can only be links, because a file
that stands below the searched directory stands below the boundary, which is at or above that
directory. -/

namespace PropAtlas

/-- Choosing from a list and sorting it can be done in either order. -/
theorem mergeSort_filter (p : String → Bool) (files : List String) :
    (files.filter p).mergeSort (fun a b => decide (a ≤ b)) =
      (files.mergeSort (fun a b => decide (a ≤ b))).filter p := by
  apply List.Perm.eq_of_pairwise' (Host.mergeSort_sorted _) ((Host.mergeSort_sorted _).filter p)
  calc
    List.Perm ((files.filter p).mergeSort (fun a b => decide (a ≤ b))) (files.filter p) :=
      List.mergeSort_perm _ _
    List.Perm _ ((files.mergeSort (fun a b => decide (a ≤ b))).filter p) :=
      (List.mergeSort_perm _ _).symm.filter p

/-- Where a search walks depends on what it skips and on its depth, not on what it looks for. -/
theorem FileSystem.leaves_congr {o o' : Scope} (hskipped : o.skipped = o'.skipped)
    (hdepth : o.depth = o'.depth) (level : Nat) (es : List (String × Entry)) :
    leaves o level es = leaves o' level es := by
  have hadmits (level : Nat) : o'.admits level = o.admits level := by
    rw [Scope.admits, Scope.admits, hdepth]
  fun_induction leaves o level es with
  | case1 level => rw [leaves]
  | case2 level n ds rest ihdirs ihrest => rw [leaves, ← hskipped, hadmits, ihdirs, ihrest]
  | case3 level n e rest hdir ihrest =>
    rw [leaves, hadmits, ihrest]
    exact hdir

/-- A link to a name that is too long cannot be followed. -/
theorem FileSystem.locate_of_long_link {root : Entry} {here names dir rest : List String}
    {target : String} {es : List (String × Entry)} {links : Nat}
    (hlink : advance root here names = .link dir target rest)
    (hdir : root.get? dir = some (.directory es)) (hplain : Path.IsPlain target)
    (hlong : nameLimit < target.utf8ByteSize) :
    locate root (links + 1) here names = .error .nameTooLong := by
  obtain ⟨hidle, hup, hslash⟩ := hplain
  have hrooted : ¬ Path.isRooted target = true := by
    intro h
    have hhead : target.toList.head? = some '/' := by simpa [Path.isRooted] using h
    exact hslash (List.mem_of_head? hhead)
  have hfailed : advance root dir (target :: rest) = .failed .nameTooLong := by
    rw [advance, hdir]
    simp [hidle, hup, hlong]
  rw [locate, hlink]
  dsimp only
  rw [linkStart, if_neg hrooted, Path.steps_eq_singleton hslash, List.singleton_append, locate,
    hfailed]

/-- The place some levels above another one. -/
def FileSystem.above (top : List String) (level : Nat) : List String := top.take (top.length - level)

theorem FileSystem.getElem?_levels {top place : List String} {k : Nat} :
    ((Path.ancestors top).take markerLevels)[k]? = some place ↔
      k ≤ 9 ∧ k ≤ top.length ∧ place = above top k := by
  have hlevels : (Path.ancestors top).take markerLevels =
      (List.range (min 10 (top.length + 1))).map (above top) := by
    rw [Path.ancestors, ← List.map_take, List.take_range]
    rfl
  rw [hlevels, List.getElem?_map, Option.map_eq_some_iff]
  simp only [List.getElem?_eq_some_iff, List.length_range, List.getElem_range]
  constructor
  · rintro ⟨_, ⟨hk, rfl⟩, rfl⟩
    exact ⟨by omega, by omega, rfl⟩
  · rintro ⟨hk, hlen, rfl⟩
    exact ⟨k, ⟨by omega, rfl⟩, rfl⟩

namespace Host
open FileSystem

variable {h : Host} {o : Scope} {root : String} {top : List String}

/-- Whether a place bounds a search from `top`: of `top` and the nine directories above it, it is the
nearest one with a project marker, or it is `top` and none of them has a marker. -/
inductive Bounds (h : Host) (top : List String) : List String → Prop where
  | marked {k : Nat} (hk : k ≤ 9) (htop : k ≤ top.length) (hmarker : h.Marked (above top k))
      (hnearer : ∀ j < k, ¬ h.Marked (above top j)) : Bounds h top (above top k)
  | unmarked (hnone : ∀ k ≤ 9, k ≤ top.length → ¬ h.Marked (above top k)) : Bounds h top top

/-- Whether the search for markers from `top` upward fails: it gets stuck at one of the ten places, and
the fault is that of the nearest. -/
def GetsStuck (h : Host) (top : List String) (f : SearchFault) : Prop :=
  ∃ k m, k ≤ 9 ∧ k ≤ top.length ∧ h.StuckAt (above top k) m ∧
    f = .marker (markerPath (above top k) m) .nameTooLong ∧
    ∀ j < k, ∀ m, ¬ h.StuckAt (above top j) m

theorem Bounds.prefix {boundary : List String} (hb : h.Bounds top boundary) : boundary <+: top := by
  cases hb with
  | marked _ _ _ _ => exact List.take_prefix _ _
  | unmarked _ => exact List.prefix_rfl

theorem projectRoots_eq_error_iff (htop : h.locate root = .ok top) {f : SearchFault} :
    h.projectRoots root = .error f ↔ h.GetsStuck top f := by
  have hmarked : h.projectRoots root = .error f ↔
      h.markedPlaces ((Path.ancestors top).take markerLevels) = .error f := by
    rw [projectRoots_of_locate htop]
    cases h.markedPlaces ((Path.ancestors top).take markerLevels) with
    | error g => simp [Except.map]
    | ok marked => simp [Except.map]
  rw [hmarked, markedPlaces_eq_error_iff]
  constructor
  · rintro ⟨k, place, m, hplace, hstuck, rfl, hnearer⟩
    obtain ⟨hk, hlen, rfl⟩ := getElem?_levels.mp hplace
    refine ⟨k, m, hk, hlen, hstuck, rfl, ?_⟩
    intro j hj
    exact hnearer j hj _ (getElem?_levels.mpr ⟨by omega, by omega, rfl⟩)
  · rintro ⟨k, m, hk, hlen, hstuck, rfl, hnearer⟩
    refine ⟨k, _, m, getElem?_levels.mpr ⟨hk, hlen, rfl⟩, hstuck, rfl, ?_⟩
    intro j hj place hplace
    rw [(getElem?_levels.mp hplace).2.2]
    exact hnearer j hj

/-- The search for markers upward ends at the boundary. -/
theorem exists_bounds (htop : h.locate root = .ok top) {roots : List Path}
    (hroots : h.projectRoots root = .ok roots) :
    ∃ boundary, h.Bounds top boundary ∧
      roots.head?.getD (h.resolve (Path.ofString root)) = .absolute boundary := by
  obtain ⟨marked, hmarked, rfl⟩ := projectRoots_eq_ok htop hroots
  rw [List.head?_map]
  rcases head?_markedPlaces hmarked with ⟨hhead, hnone⟩ | ⟨k, place, hplace, hhead, hmark, hnearer⟩
  · rw [hhead, resolve_of_locate htop]
    refine ⟨top, .unmarked ?_, rfl⟩
    intro k hk hlen
    exact hnone _ (List.mem_of_getElem? (getElem?_levels.mpr ⟨hk, hlen, rfl⟩))
  · rw [hhead]
    obtain ⟨hk, hlen, rfl⟩ := getElem?_levels.mp hplace
    refine ⟨_, .marked hk hlen hmark ?_, rfl⟩
    intro j hj
    exact hnearer j hj _ (getElem?_levels.mpr ⟨by omega, by omega, rfl⟩)

theorem isInProject_eq {roots : List Path} {boundary : List String} (file : String)
    (hb : roots.head?.getD (h.resolve (Path.ofString root)) = .absolute boundary) :
    h.isInProject file roots root =
      decide (boundary <+: (h.resolve (Path.ofString file)).names) := by
  have hreal : h.resolve (Path.ofString file) =
      .absolute (h.resolve (Path.ofString file)).names := rfl
  unfold isInProject
  rw [hb, hreal, Bool.eq_iff_iff, decide_eq_true_iff]
  simp [Path.contains, Path.absolute]

theorem foundBelow_bounded (b : Bool) (es : List (String × Entry)) :
    h.foundBelow { o with bounded := b } root es = h.foundBelow o root es := by
  have hleaves : leaves { o with bounded := b } 1 es = leaves o 1 es := by
    apply leaves_congr
    · rfl
    · rfl
  rw [foundBelow, foundBelow, hleaves]
  rfl

/-- A search that is held inside a project fails if the search for the project does. -/
theorem sourceFiles_eq_error_iff {es : List (String × Entry)} {f : SearchFault}
    (hroot : h.stat root = .ok (.directory es)) (htop : h.locate root = .ok top) :
    h.sourceFiles { o with bounded := true } root = .error f ↔ h.GetsStuck top f := by
  rw [← projectRoots_eq_error_iff htop, sourceFiles, hroot]
  dsimp only
  rw [filesBelow]
  simp only [if_true]
  cases h.projectRoots root with
  | error g => simp [Except.map]
  | ok roots => simp [Except.map]

/-- What is found inside a project is what is found anyway and has its real path below the
boundary. -/
theorem sourceFiles_kept {es : List (String × Entry)} {roots : List Path} {boundary : List String}
    (hroot : h.stat root = .ok (.directory es)) (hroots : h.projectRoots root = .ok roots)
    (hb : roots.head?.getD (h.resolve (Path.ofString root)) = .absolute boundary) :
    h.sourceFiles { o with bounded := true } root =
      .ok (((h.foundBelow o root es).mergeSort (fun a b => decide (a ≤ b))).filter
        (fun file => decide (boundary <+: (h.resolve (Path.ofString file)).names))) := by
  rw [sourceFiles, hroot]
  dsimp only
  rw [filesBelow_bounded_iff rfl]
  refine ⟨roots, hroots, ?_⟩
  rw [foundBelow_bounded (o := o) true, mergeSort_filter]
  simp only [isInProject_eq _ hb]

/-- Held inside a project, a search fails if the search for project markers gets stuck at a name that is
too long. Otherwise it finds what it finds anyway, in the same order, without the files whose real path
is not at or below the boundary; and a file that is not a link is never one of them. -/
theorem sourceFiles_bounded (h : Host) (o : Scope) (root : String) (es : List (String × Entry))
    (hwf : h.root.WellFormed) (hroot : h.stat root = .ok (.directory es)) :
    ∃ top files, h.locate root = .ok top ∧
      h.sourceFiles { o with bounded := false } root = .ok files ∧
      (∀ f, h.sourceFiles { o with bounded := true } root = .error f ↔ h.GetsStuck top f) ∧
      ((∀ k ≤ 9, k ≤ top.length → ∀ m, ¬ h.StuckAt (above top k) m) →
        ∃ boundary kept, h.Bounds top boundary ∧
          h.sourceFiles { o with bounded := true } root = .ok kept ∧
          kept = files.filter
            (fun file => decide (boundary <+: (h.resolve (Path.ofString file)).names)) ∧
          ∀ file ∈ files, ∃ names, (∀ n ∈ names, Path.IsPlain n) ∧ file = extendAll root names ∧
            ((∀ target, h.root.get? (top ++ names) ≠ some (.link target)) → file ∈ kept)) := by
  obtain ⟨top, htop, hdir⟩ := stat_eq_ok_iff.mp hroot
  have hes := hwf.of_get? hdir
  have hfree : h.sourceFiles { o with bounded := false } root = _ := sourceFiles_free hroot rfl
  rw [foundBelow_bounded (o := o) false] at hfree
  refine ⟨top, _, htop, hfree, fun f => sourceFiles_eq_error_iff hroot htop, ?_⟩
  intro hclear
  obtain ⟨roots, hroots⟩ : ∃ roots, h.projectRoots root = .ok roots := by
    cases hp : h.projectRoots root with
    | ok roots => exact ⟨roots, rfl⟩
    | error f =>
      obtain ⟨k, m, hk, hlen, hstuck, _⟩ := (projectRoots_eq_error_iff htop).mp hp
      exact absurd hstuck (hclear k hk hlen m)
  obtain ⟨boundary, hbounds, hhead⟩ := exists_bounds htop hroots
  refine ⟨boundary, _, hbounds, sourceFiles_kept hroot hroots hhead, rfl, ?_⟩
  intro file hfile
  obtain ⟨dirs, name, rfl, hd⟩ := (mem_foundBelow_iff hes htop hdir).mp (List.mem_mergeSort.mp hfile)
  refine ⟨dirs ++ [name], hd.plain hes hdir, rfl, ?_⟩
  intro hlink
  rw [List.mem_filter, decide_eq_true_iff]
  refine ⟨hfile, ?_⟩
  have hreal : h.resolve (Path.ofString (extendAll root (dirs ++ [name]))) =
      .absolute (top ++ (dirs ++ [name])) := resolve_of_locate (hd.locate hes htop hdir hlink)
  rw [hreal]
  exact hbounds.prefix.trans (List.prefix_append _ _)

/-- A project with a link to a file in it, next to the directory that is searched, and a link to a
file outside. -/
def linkedProject : Host where
  root := .directory
    [("p", .directory
      [("package.json", .file [] 0), ("a.ts", .file [] 0),
        ("src", .directory
          [("c.ts", .file [] 0), ("in.ts", .link "../a.ts"), ("out.ts", .link "/q/b.ts")])]),
      ("q", .directory [("b.ts", .file [] 0)])]

theorem sourceFiles_linkedProject : linkedProject.sourceFiles {} "/p/src" =
    .ok ["/p/src/c.ts", "/p/src/in.ts", "/p/src/out.ts"] := by
  have hleaves : leaves {} 1 [("c.ts", .file [] 0), ("in.ts", .link "../a.ts"),
      ("out.ts", .link "/q/b.ts")] = [["c.ts"], ["in.ts"], ["out.ts"]] := by
    simp [leaves, Scope.admits]
  apply sourceFiles_of_found rfl rfl hleaves
  · rw [extendAll_eq]
    decide
  · decide

theorem sourceFiles_bounded_linkedProject :
    linkedProject.root.WellFormed ∧ (∃ es, linkedProject.stat "/p/src" = .ok (.directory es)) ∧
    (∀ k ≤ 9, k ≤ 2 → ∀ m, ¬ linkedProject.StuckAt (above ["p", "src"] k) m) ∧
    linkedProject.Bounds ["p", "src"] ["p"] ∧
    linkedProject.sourceFiles { bounded := true } "/p/src" = .ok ["/p/src/c.ts", "/p/src/in.ts"] := by
  have hwf : linkedProject.root.WellFormed := by
    simp only [linkedProject, Entry.WellFormed, Entry.WellFormedOf, Table.keys, List.map]
    decide
  have hroot : linkedProject.stat "/p/src" = .ok (.directory
      [("c.ts", .file [] 0), ("in.ts", .link "../a.ts"), ("out.ts", .link "/q/b.ts")]) := rfl
  obtain ⟨top, files, htop, hfiles, _, hclear⟩ :=
    sourceFiles_bounded linkedProject {} "/p/src" _ hwf hroot
  have hplace : linkedProject.locate "/p/src" = .ok ["p", "src"] := by decide
  cases hplace.symm.trans htop
  cases sourceFiles_linkedProject.symm.trans hfiles
  -- The marker is one level up: there is none at the directory, and none farther is looked for.
  have hlevels : linkedProject.hasMarker ["p", "src"] projectMarkers = .ok false ∧
      linkedProject.hasMarker ["p"] projectMarkers = .ok true ∧
      linkedProject.hasMarker [] projectMarkers = .ok false := by decide
  obtain ⟨hself, hparent, htop⟩ := hlevels
  have hfree : ∀ k ≤ 9, k ≤ 2 → ∀ m, ¬ linkedProject.StuckAt (above ["p", "src"] k) m := by
    intro k _ hk
    apply exists_hasMarker_eq_ok_iff.mp
    obtain _ | _ | _ | k := k
    · exact ⟨_, hself⟩
    · exact ⟨_, hparent⟩
    · exact ⟨_, htop⟩
    · omega
  obtain ⟨boundary, kept, hbounds, hkept, hfilter, _⟩ := hclear hfree
  have hboundary : boundary = ["p"] := by
    cases hbounds with
    | @marked k _ _ hmarker hnearer =>
      obtain _ | _ | k := k
      · cases (marked_iff_of_hasMarker hself).mp hmarker
      · rfl
      · exact absurd ((marked_iff_of_hasMarker hparent).mpr rfl) (hnearer 1 (by omega))
    | unmarked hnone =>
      exact absurd ((marked_iff_of_hasMarker hparent).mpr rfl) (hnone 1 (by omega) (by decide))
  subst hboundary
  refine ⟨hwf, ⟨_, hroot⟩, hfree, hbounds, hkept.trans (congrArg Except.ok ?_)⟩
  rw [hfilter]
  decide

/-- A link named like a project marker, to a name that is too long, next to a source file. -/
theorem sourceFiles_of_long_marker {target : String} (hplain : Path.IsPlain target)
    (hlong : nameLimit < target.utf8ByteSize) :
    sourceFiles { root := .directory [("p", .directory
      [("a.tsx", .file [] 0), ("package.json", .link target)])] } { bounded := true } "/p" =
      .error (.marker "/p/package.json" .nameTooLong) := by
  let h : Host := { root := .directory [("p", .directory
    [("a.tsx", .file [] 0), ("package.json", .link target)])] }
  have hroot : h.stat "/p" = .ok (.directory
      [("a.tsx", .file [] 0), ("package.json", .link target)]) := rfl
  have htop : h.locate "/p" = .ok ["p"] := rfl
  have hnames : h.locate "/p/package.json" =
      FileSystem.locate h.root linkLimit [] ["p", "package.json"] := rfl
  have hmarker : h.locate "/p/package.json" = .error .nameTooLong :=
    hnames.trans (locate_of_long_link rfl rfl hplain hlong)
  apply (sourceFiles_eq_error_iff (o := {}) hroot htop).mpr
  refine ⟨0, "package.json", by decide, by decide, ⟨?_, [], _, rfl, nofun⟩, ?_, nofun⟩
  · change (h.locate "/p/package.json" >>= _) = _
    rw [hmarker]
    rfl
  · decide

theorem isPlain_replicate {n : Nat} (hn : 2 < n) :
    Path.IsPlain (String.ofList (List.replicate n 'x')) := by
  have hne (s : String) (hs : s.length ≤ 2) : String.ofList (List.replicate n 'x') ≠ s := by
    rintro rfl
    rw [String.length_ofList, List.length_replicate] at hs
    omega
  refine ⟨?_, hne _ (by decide), ?_⟩
  · have hempty := hne "" (by decide)
    have hdot := hne "." (by decide)
    simp [Path.isIdle, hempty, hdot]
  · rw [String.toList_ofList]
    intro hmem
    cases List.eq_of_mem_replicate hmem

theorem utf8ByteSize_replicate (n : Nat) :
    (String.ofList (List.replicate n 'x')).utf8ByteSize = n := by
  induction n with
  | zero => rfl
  | succ n ih =>
    have hx : 'x'.utf8Size = 1 := rfl
    rw [List.replicate_succ, String.ofList_cons, String.utf8ByteSize_append,
      String.utf8ByteSize_singleton, ih, hx, Nat.add_comm]

/-- A directory with a source file and a link named like a project marker, to a name that is too
long. -/
def overlongMarker : Host where
  root := .directory
    [("p", .directory
      [("a.tsx", .file [] 0), ("package.json", .link (String.ofList (List.replicate 256 'x')))])]

theorem sourceFiles_overlongMarker :
    overlongMarker.sourceFiles {} "/p" = .ok ["/p/a.tsx"] ∧
    overlongMarker.sourceFiles { bounded := true } "/p" =
      .error (.marker "/p/package.json" .nameTooLong) := by
  constructor
  · have hleaves (target : String) : leaves {} 1 [("a.tsx", .file [] 0),
        ("package.json", .link target)] = [["a.tsx"], ["package.json"]] := by
      simp [leaves, Scope.admits]
    apply sourceFiles_of_found rfl rfl (hleaves _)
    · rw [extendAll_eq]
      decide
    · decide
  · -- Evaluated character by character, the long name would take its time.
    apply sourceFiles_of_long_marker
    · exact isPlain_replicate (by decide)
    · rw [utf8ByteSize_replicate]
      decide

end Host
end PropAtlas
