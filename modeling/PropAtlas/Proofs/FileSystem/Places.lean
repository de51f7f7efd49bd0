import PropAtlas.Proofs.FileSystem.Leaves

/-! Where leaves stand. The names of a leaf are those of directories and of something else, and a path
that is continued by plain names goes on from where it led. -/

namespace PropAtlas
namespace FileSystem

variable {root : Entry}

theorem Entry.WellFormed.of_mem {es : List (String × Entry)} {n : String} {e : Entry}
    (h : (Entry.directory es).WellFormed) (hmem : (n, e) ∈ es) : e.WellFormed := by
  rw [Entry.WellFormed] at h
  exact (Entry.wellFormedOf_iff.mp h.2 n e hmem).2

theorem get?_concat {top : List String} {es : List (String × Entry)}
    (htop : root.get? top = some (.directory es)) (n : String) :
    root.get? (top ++ [n]) = Table.get? es n := by
  rw [Entry.get?_append, htop]
  exact Option.bind_fun_some _

theorem Entry.WellFormed.plain_of_get? {e c : Entry} {place : List String} (h : e.WellFormed)
    (hc : e.get? place = some c) : ∀ n ∈ place, Path.IsPlain n := by
  induction place generalizing e with
  | nil => exact fun n hn => absurd hn List.not_mem_nil
  | cons n place ih =>
    obtain ⟨d, hd, hplace⟩ := Option.bind_eq_some_iff.mp hc
    cases e with
    | directory es =>
      rw [Entry.WellFormed] at h
      obtain ⟨hn, hwf⟩ := Entry.wellFormedOf_iff.mp h.2 n d (Table.mem_of_get? hd)
      exact List.forall_mem_cons.mpr ⟨hn, ih hwf hplace⟩
    | file content modified => cases hd
    | link target => cases hd
    | device => cases hd

theorem Entry.WellFormed.get?_eq_some_iff {es : List (String × Entry)}
    (h : (Entry.directory es).WellFormed) {n : String} {e : Entry} :
    Table.get? es n = some e ↔ (n, e) ∈ es := by
  rw [Entry.WellFormed] at h
  exact Table.get?_eq_some_iff h.1

theorem leaf_cons_iff {es : List (String × Entry)} {n : String} {inner : List String}
    (hne : inner ≠ []) : Leaf es (n :: inner) ↔ ∃ ds, (n, .directory ds) ∈ es ∧ Leaf ds inner := by
  constructor
  · intro h
    cases h with
    | entry _ _ => exact absurd rfl hne
    | inside hmem hleaf => exact ⟨_, hmem, hleaf⟩
  · rintro ⟨ds, hmem, hleaf⟩
    exact .inside hmem hleaf

/-- The leaves of the directory at a place are the entries that are no directories and have only
directories above them. -/
theorem leaf_iff {top dirs : List String} {name : String} {es : List (String × Entry)}
    (hes : (Entry.directory es).WellFormed) (htop : root.get? top = some (.directory es)) :
    Leaf es (dirs ++ [name]) ↔
      (∀ above, above <+: dirs → ∃ ds, root.get? (top ++ above) = some (.directory ds)) ∧
      ∃ e, root.get? (top ++ (dirs ++ [name])) = some e ∧ ∀ ds, e ≠ .directory ds := by
  induction dirs generalizing top es with
  | nil =>
    have hget := get?_concat htop name
    constructor
    · intro h
      cases h with
      | entry hmem hdir =>
        refine ⟨?_, _, hget.trans (hes.get?_eq_some_iff.mpr hmem), hdir⟩
        intro above habove
        rw [List.prefix_nil.mp habove, List.append_nil]
        exact ⟨es, htop⟩
      | inside _ hleaf => exact absurd rfl hleaf.ne_nil
    · rintro ⟨_, e, he, hdir⟩
      exact .entry (hes.get?_eq_some_iff.mp (hget.symm.trans he)) hdir
  | cons n dirs ih =>
    have hget := get?_concat htop n
    have hsplit (above : List String) : top ++ n :: above = (top ++ [n]) ++ above := by simp
    rw [List.cons_append, leaf_cons_iff (by simp), hsplit]
    constructor
    · rintro ⟨fs, hmem, hleaf⟩
      have hn := hget.trans (hes.get?_eq_some_iff.mpr hmem)
      obtain ⟨habove, hlast⟩ := (ih (hes.of_mem hmem) hn).mp hleaf
      refine ⟨?_, hlast⟩
      intro above hprefix
      rcases List.prefix_cons_iff.mp hprefix with rfl | ⟨inner, rfl, hinner⟩
      · exact ⟨es, by rw [List.append_nil, htop]⟩
      · rw [hsplit]
        exact habove inner hinner
    · rintro ⟨habove, hlast⟩
      obtain ⟨fs, hn⟩ := habove [n] ⟨dirs, rfl⟩
      have hmem := hes.get?_eq_some_iff.mp (hget.symm.trans hn)
      refine ⟨fs, hmem, (ih (hes.of_mem hmem) hn).mpr ⟨?_, hlast⟩⟩
      intro above hprefix
      rw [← hsplit]
      exact habove (n :: above) ((List.prefix_cons_inj n).mpr hprefix)

/-- Plain names that meet no link lead to the place they spell. -/
theorem leads_direct {here names : List String} (hplain : ∀ n ∈ names, Path.IsPlain n)
    (hlink : ∀ above, above <+: names → above ≠ [] →
      ∀ target, root.get? (here ++ above) ≠ some (.link target)) :
    Leads root 0 here names (here ++ names) := by
  induction names generalizing here with
  | nil =>
    rw [List.append_nil]
    exact .arrived
  | cons n names ih =>
    have hsplit (above : List String) : here ++ n :: above = (here ++ [n]) ++ above := by simp
    have hn := hplain n List.mem_cons_self
    have hfirst := hlink [n] ⟨names, rfl⟩ (List.cons_ne_nil _ _)
    rw [hsplit]
    refine .enter hn.1 hn.2.1 hfirst (ih (List.forall_mem_of_forall_mem_cons hplain) ?_)
    intro above hprefix _ target
    rw [← hsplit]
    exact hlink (n :: above) ((List.prefix_cons_inj n).mpr hprefix) (List.cons_ne_nil _ _) target

theorem isRooted_extendAll_eq (text : String) {names : List String}
    (h : ∀ n ∈ names, Path.IsPlain n) :
    Path.isRooted (extendAll text names) = Path.isRooted text := by
  induction names generalizing text with
  | nil => rfl
  | cons n names ih =>
    have hcons : extendAll text (n :: names) = extendAll (Path.extend text n) names := rfl
    rw [hcons, ih _ (List.forall_mem_of_forall_mem_cons h),
      Path.isRooted_extend_eq text (h n List.mem_cons_self)]

theorem extendAll_inj {text : String} {names others : List String}
    (hnames : ∀ n ∈ names, Path.IsPlain n) (hothers : ∀ n ∈ others, Path.IsPlain n)
    (h : extendAll text names = extendAll text others) : names = others := by
  have hread := congrArg (fun t => (Path.ofString t).names) h
  rw [names_extendAll text hnames, names_extendAll text hothers] at hread
  exact List.append_cancel_left hread

end FileSystem

namespace Host
open FileSystem

variable {h : Host}

/-- A path that is continued by plain names goes through where it led before. -/
theorem leads_of_locate_extendAll {path : String} {names top place : List String}
    (hplain : ∀ n ∈ names, Path.IsPlain n) (htop : h.locate path = .ok top)
    (hplace : h.locate (extendAll path names) = .ok place) :
    Leads h.root linkLimit top names place := by
  have hshort := leads_of_locate htop
  have hlong := leads_of_locate hplace
  have hstart : h.start (extendAll path names) = h.start path := by
    rw [start, start, isRooted_extendAll_eq path hplain]
  rw [← start_eq] at hshort
  rw [← start_eq, hstart, names_extendAll path hplain, leads_append] at hlong
  obtain ⟨mid, hmid, hrest⟩ := hlong
  cases hmid.unique hshort
  exact hrest

theorem isFile_iff {path : String} :
    h.isFile path = true ↔ ∃ content modified, h.stat path = .ok (.file content modified) := by
  unfold isFile
  split
  · rename_i hs
    simp [hs]
  · rename_i hs
    simpa using hs

end Host
end PropAtlas
