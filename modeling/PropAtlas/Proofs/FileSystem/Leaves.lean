import PropAtlas.Proofs.FileSystem.Below

/-! Leaves of a directory. A search walks to those that are in no skipped directory and not too deep,
and to none of them twice. -/

namespace PropAtlas.FileSystem

theorem leaf_cons {me : String × Entry} {es : List (String × Entry)} {names : List String} :
    Leaf (me :: es) names ↔ Leaf [me] names ∨ Leaf es names := by
  constructor
  · intro h
    cases h with
    | entry hmem hdir =>
      rcases List.mem_cons.mp hmem with rfl | hmem
      · exact Or.inl (.entry (List.mem_singleton_self _) hdir)
      · exact Or.inr (.entry hmem hdir)
    | inside hmem hleaf =>
      rcases List.mem_cons.mp hmem with rfl | hmem
      · exact Or.inl (.inside (List.mem_singleton_self _) hleaf)
      · exact Or.inr (.inside hmem hleaf)
  · rintro (h | h)
    · exact h.mono (by simp)
    · exact h.mono (List.subset_cons_self _ _)

theorem leaf_directory {n : String} {ds : List (String × Entry)} {names : List String} :
    Leaf [(n, .directory ds)] names ↔ ∃ inner, Leaf ds inner ∧ names = n :: inner := by
  constructor
  · intro h
    cases h with
    | entry hmem hdir =>
      cases List.mem_singleton.mp hmem
      exact absurd rfl (hdir ds)
    | inside hmem hleaf =>
      cases List.mem_singleton.mp hmem
      exact ⟨_, hleaf, rfl⟩
  · rintro ⟨inner, hleaf, rfl⟩
    exact .inside (List.mem_singleton_self _) hleaf

theorem leaf_other {n : String} {e : Entry} {names : List String}
    (he : ∀ ds, e ≠ .directory ds) : Leaf [(n, e)] names ↔ names = [n] := by
  constructor
  · intro h
    cases h with
    | entry hmem hdir =>
      cases List.mem_singleton.mp hmem
      rfl
    | inside hmem hleaf =>
      cases List.mem_singleton.mp hmem
      exact absurd rfl (he _)
  · rintro rfl
    exact .entry (List.mem_singleton_self _) he

theorem Leaf.ne_nil {es : List (String × Entry)} {names : List String} (h : Leaf es names) :
    names ≠ [] := by
  cases h <;> exact List.cons_ne_nil _ _

theorem Scope.admits_iff {o : Scope} {level : Nat} :
    o.admits level = true ↔ ∀ d, o.depth = some d → (level : Int) ≤ d := by
  unfold admits
  cases o.depth with
  | none => simp
  | some d => simp

theorem Scope.admits_of_le {o : Scope} {low high : Nat} (hle : low ≤ high)
    (h : o.admits high = true) : o.admits low = true := by
  rw [admits_iff] at h ⊢
  intro d hd
  have := h d hd
  omega

/-- Of the leaves of a directory, those are walked to that are in no skipped directory and not too
deep. -/
theorem mem_leaves_iff {o : Scope} {level : Nat} {es : List (String × Entry)}
    {names : List String} : names ∈ leaves o level es ↔
      Leaf es names ∧ (∀ n ∈ names.dropLast, n ∉ o.skipped) ∧
        o.admits (level + names.dropLast.length) = true := by
  fun_induction leaves o level es generalizing names with
  | case1 level =>
    constructor
    · exact fun h => absurd h List.not_mem_nil
    · rintro ⟨h, _⟩
      cases h with
      | entry hmem _ => exact absurd hmem List.not_mem_nil
      | inside hmem _ => exact absurd hmem List.not_mem_nil
  | case2 level n ds rest ihdirs ihrest =>
    rw [List.mem_append, ihrest, leaf_cons, or_and_right]
    refine or_congr_left ?_
    rw [leaf_directory]
    -- One name more in front of the names that are walked inside the directory.
    have hstep (inner : List String) (hne : inner ≠ []) :
        (n :: inner).dropLast = n :: inner.dropLast := List.dropLast_cons_of_ne_nil hne
    have hdeep (inner : List String) : level + 1 + inner.length = level + (n :: inner).length := by
      rw [List.length_cons]
      omega
    constructor
    · intro h
      split_ifs at h with hclosed
      · exact absurd h List.not_mem_nil
      obtain ⟨inner, hinner, rfl⟩ := List.mem_map.mp h
      obtain ⟨hleaf, hskip, hadmits⟩ := ihdirs.mp hinner
      have hopen : n ∉ o.skipped := by
        intro hn
        simp [hn] at hclosed
      refine ⟨⟨inner, hleaf, rfl⟩, ?_, ?_⟩
      · rw [hstep inner hleaf.ne_nil]
        exact List.forall_mem_cons.mpr ⟨hopen, hskip⟩
      · rw [hstep inner hleaf.ne_nil, ← hdeep]
        exact hadmits
    · rintro ⟨⟨inner, hleaf, rfl⟩, hskip, hadmits⟩
      rw [hstep inner hleaf.ne_nil] at hskip hadmits
      rw [← hdeep] at hadmits
      obtain ⟨hopen, hskip⟩ := List.forall_mem_cons.mp hskip
      have hnext : o.admits (level + 1) = true := Scope.admits_of_le (by omega) hadmits
      rw [if_neg (by simp [hopen, hnext])]
      exact List.mem_map.mpr ⟨inner, ihdirs.mpr ⟨hleaf, hskip, hadmits⟩, rfl⟩
  | case3 level n e rest hdir ihrest =>
    rw [List.mem_append, ihrest, leaf_cons, leaf_other hdir, or_and_right]
    refine or_congr_left ?_
    constructor
    · intro h
      split_ifs at h with hadmits
      · cases List.mem_singleton.mp h
        exact ⟨rfl, by simp, hadmits⟩
      · exact absurd h List.not_mem_nil
    · rintro ⟨rfl, _, hadmits⟩
      rw [if_pos (by simpa using hadmits)]
      exact List.mem_singleton_self _

theorem Leaf.head_mem {es : List (String × Entry)} {names : List String} (h : Leaf es names) :
    ∃ n inner, names = n :: inner ∧ n ∈ Table.keys es := by
  cases h with
  | entry hmem _ => exact ⟨_, _, rfl, Table.mem_keys.mpr ⟨_, hmem⟩⟩
  | inside hmem _ => exact ⟨_, _, rfl, Table.mem_keys.mpr ⟨_, hmem⟩⟩

theorem Entry.WellFormed.tail {n : String} {e : Entry} {rest : List (String × Entry)}
    (h : (Entry.directory ((n, e) :: rest)).WellFormed) :
    n ∉ Table.keys rest ∧ e.WellFormed ∧ (Entry.directory rest).WellFormed := by
  rw [Entry.WellFormed, Entry.WellFormedOf] at h
  obtain ⟨hkeys, _, he, hrest⟩ := h
  obtain ⟨hnew, hkeys⟩ := List.nodup_cons.mp hkeys
  refine ⟨hnew, he, ?_⟩
  rw [Entry.WellFormed]
  exact ⟨hkeys, hrest⟩

theorem nodup_leaves {o : Scope} {level : Nat} {es : List (String × Entry)}
    (hes : (Entry.directory es).WellFormed) : (leaves o level es).Nodup := by
  -- What is walked to through a name differs from what is walked to through the names after it.
  have hapart {level : Nat} {n : String} {rest : List (String × Entry)}
      {front : List (List String)} (hnew : n ∉ Table.keys rest) (hfront : front.Nodup)
      (hhead : ∀ names ∈ front, ∃ inner, names = n :: inner)
      (hrest : (leaves o level rest).Nodup) : (front ++ leaves o level rest).Nodup := by
    apply hfront.append hrest
    intro names hnames hlater
    obtain ⟨inner, rfl⟩ := hhead names hnames
    obtain ⟨m, _, hm, hmem⟩ := (leaf_of_mem_leaves hlater).head_mem
    cases hm
    exact hnew hmem
  fun_induction leaves o level es with
  | case1 level => exact List.nodup_nil
  | case2 level n ds rest ihdirs ihrest =>
    obtain ⟨hnew, hds, hrest⟩ := hes.tail
    refine hapart hnew ?_ ?_ (ihrest hrest)
    · split_ifs
      · exact List.nodup_nil
      · exact (ihdirs hds).map (List.cons_injective)
    · intro names hnames
      split_ifs at hnames
      · exact absurd hnames List.not_mem_nil
      · obtain ⟨inner, _, rfl⟩ := List.mem_map.mp hnames
        exact ⟨inner, rfl⟩
  | case3 level n e rest hdir ihrest =>
    obtain ⟨hnew, _, hrest⟩ := hes.tail
    refine hapart hnew ?_ ?_ (ihrest hrest)
    · split_ifs
      · exact List.nodup_singleton _
      · exact List.nodup_nil
    · intro names hnames
      split_ifs at hnames
      · exact ⟨[], List.mem_singleton.mp hnames⟩
      · exact absurd hnames List.not_mem_nil

end PropAtlas.FileSystem
