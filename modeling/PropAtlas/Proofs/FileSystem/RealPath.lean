import PropAtlas.Proofs.FileSystem.Links

/-! A path that can be looked up leads to the entry at its real path. A lookup follows links one
after the other and gives up after too many; when it ends, it has gone where the names lead when each
link is replaced by what its target leads to. -/

namespace PropAtlas
namespace FileSystem

variable {root : Entry}

/-! ### Up to the first link -/

/-- What a name can do: fail, lead on to a place without a link, or name a link. -/
theorem advance_cons (root : Entry) (here : List String) (n : String) :
    (∃ f, ∀ rest, advance root here (n :: rest) = .failed f) ∨
    (∃ next, (∀ d rest place, Leads root d next rest place → Leads root d here (n :: rest) place) ∧
      ∀ rest, advance root here (n :: rest) = advance root next rest) ∨
    ∃ target, Path.isIdle n = false ∧ n ≠ ".." ∧ root.get? (here ++ [n]) = some (.link target) ∧
      ∀ rest, advance root here (n :: rest) = .link here target rest := by
  cases hr : root.get? here with
  | none => exact Or.inl ⟨.missing, fun rest => by simp [advance, hr]⟩
  | some e =>
    cases e with
    | file content modified => exact Or.inl ⟨.notDirectory, fun rest => by simp [advance, hr]⟩
    | link target => exact Or.inl ⟨.notDirectory, fun rest => by simp [advance, hr]⟩
    | device => exact Or.inl ⟨.notDirectory, fun rest => by simp [advance, hr]⟩
    | directory es =>
      by_cases hidle : Path.isIdle n = true
      · exact Or.inr (Or.inl ⟨here, fun _ _ _ => .idle hidle,
          fun rest => by simp [advance, hr, hidle]⟩)
      have hn : Path.isIdle n = false := by simpa using hidle
      by_cases hup : n = ".."
      · subst hup
        exact Or.inr (Or.inl ⟨here.dropLast, fun _ _ _ => .up,
          fun rest => by simp [advance, hr, hidle]⟩)
      by_cases hlong : n.utf8ByteSize > nameLimit
      · exact Or.inl ⟨.nameTooLong, fun rest => by simp [advance, hr, hidle, hup, hlong]⟩
      have hget : root.get? (here ++ [n]) = Table.get? es n := by
        rw [Entry.get?_append, hr]
        exact Option.bind_fun_some _
      cases hc : Table.get? es n with
      | none => exact Or.inl ⟨.missing, fun rest => by simp [advance, hr, hidle, hup, hlong, hc]⟩
      | some c =>
        rw [hc] at hget
        -- A link is left to the caller; any other entry is walked into.
        by_cases hlink : ∃ target, c = .link target
        · obtain ⟨target, rfl⟩ := hlink
          exact Or.inr (Or.inr ⟨target, hn, hup, hget,
            fun rest => by simp [advance, hr, hidle, hup, hlong, hc]⟩)
        · have hstay (target : String) : root.get? (here ++ [n]) ≠ some (.link target) := by
            rw [hget]
            intro h
            exact hlink ⟨target, Option.some.inj h⟩
          refine Or.inr (Or.inl ⟨here ++ [n], fun _ _ _ => .enter hn hup hstay, fun rest => ?_⟩)
          cases c with
          | link target => exact absurd ⟨target, rfl⟩ hlink
          | file content modified => simp [advance, hr, hidle, hup, hlong, hc]
          | directory ds => simp [advance, hr, hidle, hup, hlong, hc]
          | device => simp [advance, hr, hidle, hup, hlong, hc]

/-- Names that meet no link lead to the place they arrive at. -/
theorem leads_of_arrived {here names place : List String}
    (h : advance root here names = .arrived place) (d : Nat) : Leads root d here names place := by
  induction names generalizing here with
  | nil =>
    cases h
    exact .arrived
  | cons n names ih =>
    obtain ⟨f, hf⟩ | ⟨next, hleads, hnext⟩ | ⟨target, _, _, _, hlink⟩ := advance_cons root here n
    · rw [hf] at h
      cases h
    · exact hleads d names place (ih (hnext names ▸ h))
    · rw [hlink] at h
      cases h

/-- Names that meet a link lead on from where its target leads. -/
theorem leads_of_link {here names dir rest : List String} {target : String}
    (h : advance root here names = .link dir target rest) {d : Nat} {mid place : List String}
    (htarget : Leads root d (linkStart dir target) (Path.steps target) mid)
    (hrest : Leads root (d + 1) mid rest place) : Leads root (d + 1) here names place := by
  induction names generalizing here with
  | nil => cases h
  | cons n names ih =>
    obtain ⟨f, hf⟩ | ⟨next, hleads, hnext⟩ | ⟨t, hn, hup, hget, hlink⟩ := advance_cons root here n
    · rw [hf] at h
      cases h
    · exact hleads _ names place (ih (hnext names ▸ h))
    · rw [hlink] at h
      cases h
      exact .follow hn hup hget htarget hrest

/-! ### Through links -/

/-- A lookup that ends meets no link, or has one link less to follow after the first. -/
theorem locate_cases {k : Nat} {here names place : List String}
    (h : locate root k here names = .ok place) :
    advance root here names = .arrived place ∨
    ∃ dir target rest j, advance root here names = .link dir target rest ∧ k = j + 1 ∧
      locate root j (linkStart dir target) (Path.steps target ++ rest) = .ok place := by
  rw [locate] at h
  cases ha : advance root here names with
  | arrived p =>
    rw [ha] at h
    cases h
    exact Or.inl rfl
  | failed f =>
    rw [ha] at h
    cases h
  | link dir target rest =>
    rw [ha] at h
    cases k with
    | zero => cases h
    | succ j => exact Or.inr ⟨dir, target, rest, j, rfl, rfl, h⟩

/-- A lookup ends where the names lead, with links nested no deeper than it may follow them. -/
theorem leads_of_locate {k : Nat} {here names place : List String}
    (h : locate root k here names = .ok place) : Leads root k here names place := by
  -- What follows the first link is one way; it splits where the target of the link ends.
  induction k using Nat.strongRecOn generalizing here names with
  | _ k ih =>
    obtain ha | ⟨dir, target, rest, j, ha, rfl, hl⟩ := locate_cases h
    · exact leads_of_arrived ha k
    · obtain ⟨mid, htarget, hrest⟩ := leads_append.mp (ih j (by omega) hl)
      exact leads_of_link ha htarget (hrest.mono (by omega))

/-- Whether the link at a place, if there is one, can be looked up by following so many links. -/
def isFollowed (root : Entry) (k : Nat) (place : List String) : Bool :=
  match root.get? place with
  | some (.link target) =>
    (locate root k (linkStart place.dropLast target) (Path.steps target)).isOk
  | _ => true

/-- There are no loops if every link can be looked up. -/
theorem loopFree_of_isFollowed {k : Nat}
    (h : (root.places Entry.isLink).all (isFollowed root k) = true) : LoopFree root := by
  intro dir n target hlink
  have hmem : dir ++ [n] ∈ root.places Entry.isLink := Entry.mem_places hlink List.mem_cons_self
  have hfollowed := List.all_eq_true.mp h _ hmem
  rw [isFollowed, hlink, List.dropLast_concat] at hfollowed
  dsimp only at hfollowed
  cases hl : locate root k (linkStart dir target) (Path.steps target) with
  | ok place => exact ⟨k, place, leads_of_locate hl⟩
  | error f =>
    rw [hl] at hfollowed
    cases hfollowed

end FileSystem

namespace Host
open FileSystem

theorem start_eq (h : Host) (path : String) :
    h.start path = if (Path.ofString path).anchor = .here then h.cwd else [] := by
  have hanchor : (Path.ofString path).anchor = .here ↔ Path.isRooted path = false :=
    Path.anchorOf_eq_here_iff path
  rw [start]
  simp only [hanchor]
  cases Path.isRooted path <;> rfl

theorem stat_eq_ok_iff {h : Host} {path : String} {e : Entry} :
    h.stat path = .ok e ↔ ∃ place, h.locate path = .ok place ∧ h.root.get? place = some e := by
  unfold stat
  cases hl : h.locate path with
  | error f => simp [bind, Except.bind]
  | ok place => cases hg : h.root.get? place <;> simp [bind, Except.bind, hg]

/-- A path that can be looked up ends where its names lead. -/
theorem leads_of_locate {h : Host} {path : String} {place : List String}
    (hl : h.locate path = .ok place) :
    Leads h.root linkLimit (if (Path.ofString path).anchor = .here then h.cwd else [])
      (Path.ofString path).names place := by
  unfold locate at hl
  split_ifs at hl
  -- Looking up reads the text name by name; the path that is made real has its idle names dropped.
  rw [← start_eq]
  exact leads_filter.mpr (FileSystem.leads_of_locate hl)

theorem leads_of_locate_rooted {h : Host} {path : String} {place : List String}
    (hpath : Path.isRooted path = true) (hl : h.locate path = .ok place) :
    Leads h.root linkLimit [] (Path.ofString path).names place := by
  have hleads := leads_of_locate hl
  rwa [if_neg (Path.anchor_ofString_ne_here hpath)] at hleads

/-- A path that can be looked up ends at its real path. -/
theorem resolve_of_locate {h : Host} {path : String} {place : List String}
    (hl : h.locate path = .ok place) : h.resolve (Path.ofString path) = .absolute place := by
  rw [resolve, (leads_of_locate hl).real_links]

/-- The entry that a path leads to stands at its real path. -/
theorem get?_resolve_of_stat {h : Host} {path : String} {e : Entry} (hs : h.stat path = .ok e) :
    h.root.get? (h.resolve (Path.ofString path)).names = some e := by
  obtain ⟨place, hl, hplace⟩ := stat_eq_ok_iff.mp hs
  rw [resolve_of_locate hl]
  exact hplace

end Host

end PropAtlas
