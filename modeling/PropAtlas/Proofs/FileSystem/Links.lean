import PropAtlas.FileSystem.Host
import PropAtlas.Proofs.Path
import PropAtlas.Proofs.Table
import Mathlib.Data.List.Infix
import Mathlib.Data.Nat.Find

/-! Where names lead when every link on the way is replaced by what its target leads to, as a
relation that ends where following links ends. Links need not be nested deeper than there are links,
so making a path real finds that place whenever there is one. Without loops there always is, and
what is found has no link left in it. -/

namespace PropAtlas
namespace FileSystem

/-! ### Places -/

namespace Entry

theorem get?_append (e : Entry) (place names : List String) :
    e.get? (place ++ names) = (e.get? place).bind (fun c => c.get? names) := by
  induction place generalizing e with
  | nil => rfl
  | cons n place ih =>
    rw [List.cons_append, get?, get?]
    cases Table.get? e.listing n with
    | none => rfl
    | some c => exact ih c

mutual

/-- The places of the entries of a kind, apart from directories. -/
def places (kind : Entry → Bool) : Entry → List (List String)
  | .directory es => placesOf kind es
  | e => if kind e then [[]] else []

def placesOf (kind : Entry → Bool) : List (String × Entry) → List (List String)
  | [] => []
  | (n, e) :: es => (places kind e).map (n :: ·) ++ placesOf kind es

end

theorem mem_placesOf {kind : Entry → Bool} {es : List (String × Entry)} {n : String} {c : Entry}
    {p : List String} (hc : (n, c) ∈ es) (hp : p ∈ c.places kind) : n :: p ∈ placesOf kind es := by
  induction es with
  | nil => exact absurd hc List.not_mem_nil
  | cons me es ih =>
    obtain ⟨m, e⟩ := me
    rw [placesOf, List.mem_append]
    rcases List.mem_cons.mp hc with h | h
    · cases h
      exact Or.inl (List.mem_map.mpr ⟨p, hp, rfl⟩)
    · exact Or.inr (ih h)

/-- The place of a leaf is found by the places of its kind. -/
theorem mem_places {kind : Entry → Bool} {e c : Entry} {p : List String} (h : e.get? p = some c)
    (hc : [] ∈ c.places kind) : p ∈ e.places kind := by
  induction p generalizing e with
  | nil =>
    cases h
    exact hc
  | cons n p ih =>
    obtain ⟨d, hd, hp⟩ := Option.bind_eq_some_iff.mp h
    cases e with
    | directory es => exact mem_placesOf (Table.mem_of_get? hd) (ih hp)
    | link target => cases hd
    | file content modified => cases hd
    | device => cases hd

def isLink : Entry → Bool
  | .link _ => true
  | _ => false

mutual

theorem length_places_isLink (e : Entry) : (e.places isLink).length = e.links := by
  cases e with
  | link target => rfl
  | directory es => exact length_placesOf_isLink es
  | file content modified => rfl
  | device => rfl

theorem length_placesOf_isLink (es : List (String × Entry)) :
    (placesOf isLink es).length = linksOf es := by
  cases es with
  | nil => rfl
  | cons ne es =>
    obtain ⟨n, e⟩ := ne
    rw [placesOf, linksOf, List.length_append, List.length_map, length_places_isLink e,
      length_placesOf_isLink es]

end

end Entry

/-! ### Where names lead -/

/-- Names lead from a place to another one when every link on the way is replaced by the place that
its target leads to, with links nested at most so deep. Names that do not exist are taken
literally. -/
inductive Leads (root : Entry) : (depth : Nat) → (here names place : List String) → Prop where
  | arrived {d : Nat} {here : List String} : Leads root d here [] here
  | idle {d : Nat} {here rest place : List String} {n : String} (hn : Path.isIdle n = true)
      (hrest : Leads root d here rest place) : Leads root d here (n :: rest) place
  | up {d : Nat} {here rest place : List String} (hrest : Leads root d here.dropLast rest place) :
      Leads root d here (".." :: rest) place
  | enter {d : Nat} {here rest place : List String} {n : String} (hn : Path.isIdle n = false)
      (hup : n ≠ "..") (hlink : ∀ target, root.get? (here ++ [n]) ≠ some (.link target))
      (hrest : Leads root d (here ++ [n]) rest place) : Leads root d here (n :: rest) place
  | follow {d : Nat} {here rest mid place : List String} {n target : String}
      (hn : Path.isIdle n = false) (hup : n ≠ "..")
      (hlink : root.get? (here ++ [n]) = some (.link target))
      (htarget : Leads root d (linkStart here target) (Path.steps target) mid)
      (hrest : Leads root (d + 1) mid rest place) : Leads root (d + 1) here (n :: rest) place

variable {root : Entry}

theorem Leads.mono {d e : Nat} {here names place : List String} (h : Leads root d here names place)
    (hde : d ≤ e) : Leads root e here names place := by
  induction h generalizing e with
  | arrived => exact .arrived
  | idle hn _ ih => exact .idle hn (ih hde)
  | up _ ih => exact .up (ih hde)
  | enter hn hup hlink _ ih => exact .enter hn hup hlink (ih hde)
  | follow hn hup hlink _ _ iht ihr =>
    obtain ⟨e, rfl⟩ : ∃ e', e = e' + 1 := ⟨e - 1, by omega⟩
    exact .follow hn hup hlink (iht (by omega)) (ihr hde)

/-- What `real` makes of the target of a link. -/
def targetPlace (root : Entry) : Nat → List String → List String → List String
  | 0 => fun here names => here ++ names
  | d + 1 => real root d

theorem real_eq_foldl (root : Entry) (d : Nat) (here names : List String) :
    real root d here names = names.foldl (realStep root (targetPlace root d)) here := by
  cases d <;> rfl

/-- Making a path real brings no slash into a name. -/
theorem slash_not_mem_real {d : Nat} {here names : List String}
    (hhere : ∀ n ∈ here, '/' ∉ n.toList) (hnames : ∀ n ∈ names, '/' ∉ n.toList) :
    ∀ n ∈ real root d here names, '/' ∉ n.toList := by
  induction d using Nat.strongRecOn generalizing here names with
  | _ d ihd =>
    rw [real_eq_foldl]
    induction names generalizing here with
    | nil => exact hhere
    | cons n names ih =>
      rw [List.foldl_cons]
      refine ih ?_ (List.forall_mem_of_forall_mem_cons hnames)
      unfold realStep
      split_ifs
      · exact hhere
      · exact fun m hm => hhere m ((List.dropLast_sublist here).mem hm)
      split
      · rename_i target _
        have hstart : ∀ m ∈ linkStart here target, '/' ∉ m.toList := by
          unfold linkStart
          split_ifs
          · exact fun m hm => absurd hm List.not_mem_nil
          · exact hhere
        cases d with
        | zero =>
          exact List.forall_mem_append.mpr ⟨hstart, fun _ => Path.slash_not_mem_steps⟩
        | succ d => exact ihd d (by omega) hstart (fun _ => Path.slash_not_mem_steps)
      · exact List.forall_mem_append.mpr
          ⟨hhere, List.forall_mem_singleton.mpr (hnames n List.mem_cons_self)⟩

/-- Where names lead is what they are made real to, at the same depth. -/
theorem Leads.real {d : Nat} {here names place : List String} (h : Leads root d here names place) :
    FileSystem.real root d here names = place := by
  induction h with
  | arrived => rw [real_eq_foldl, List.foldl_nil]
  | idle hn _ ih =>
    rw [real_eq_foldl] at ih ⊢
    rw [List.foldl_cons, realStep, if_pos hn]
    exact ih
  | up _ ih =>
    rw [real_eq_foldl] at ih ⊢
    rw [List.foldl_cons, realStep, if_neg (by decide), if_pos (by decide)]
    exact ih
  | enter hn hup hlink _ ih =>
    rw [real_eq_foldl] at ih ⊢
    rw [List.foldl_cons, realStep, if_neg (by simp [hn]), if_neg (by simpa using hup)]
    split
    · exact absurd ‹_› (hlink _)
    · exact ih
  | follow hn hup hlink _ _ iht ihr =>
    rw [real_eq_foldl] at ihr ⊢
    rw [List.foldl_cons, realStep, if_neg (by simp [hn]), if_neg (by simpa using hup), hlink]
    dsimp only [targetPlace]
    rw [iht]
    exact ihr

theorem Leads.unique {d e : Nat} {here names place place' : List String}
    (h : Leads root d here names place) (h' : Leads root e here names place') : place = place' := by
  rw [← (h.mono (Nat.le_max_left d e)).real, ← (h'.mono (Nat.le_max_right d e)).real]

theorem leads_append {d : Nat} {here xs ys place : List String} :
    Leads root d here (xs ++ ys) place ↔
      ∃ mid, Leads root d here xs mid ∧ Leads root d mid ys place := by
  constructor
  · intro h
    induction xs generalizing here with
    | nil => exact ⟨here, .arrived, h⟩
    | cons n xs ih =>
      rw [List.cons_append] at h
      cases h with
      | idle hn hrest =>
        obtain ⟨mid, hx, hy⟩ := ih hrest
        exact ⟨mid, .idle hn hx, hy⟩
      | up hrest =>
        obtain ⟨mid, hx, hy⟩ := ih hrest
        exact ⟨mid, .up hx, hy⟩
      | enter hn hup hlink hrest =>
        obtain ⟨mid, hx, hy⟩ := ih hrest
        exact ⟨mid, .enter hn hup hlink hx, hy⟩
      | follow hn hup hlink htarget hrest =>
        obtain ⟨mid, hx, hy⟩ := ih hrest
        exact ⟨mid, .follow hn hup hlink htarget hx, hy⟩
  · rintro ⟨mid, hx, hy⟩
    induction hx with
    | arrived => exact hy
    | idle hn _ ih => exact .idle hn (ih hy)
    | up _ ih => exact .up (ih hy)
    | enter hn hup hlink _ ih => exact .enter hn hup hlink (ih hy)
    | follow hn hup hlink htarget _ _ ih => exact .follow hn hup hlink htarget (ih hy)

/-- Names that stay where they are make no difference. -/
theorem leads_filter {d : Nat} {here names place : List String} :
    Leads root d here (names.filter (fun n => !Path.isIdle n)) place ↔
      Leads root d here names place := by
  induction names generalizing here with
  | nil => rfl
  | cons n names ih =>
    by_cases hidle : Path.isIdle n = true
    · rw [List.filter_cons_of_neg (by simp [hidle]), ih]
      constructor
      · exact .idle hidle
      · rintro (_ | ⟨_, hrest⟩ | hrest | ⟨hn, _⟩ | ⟨hn, _⟩)
        · exact hrest
        · exact absurd hidle (by decide)
        · simp [hidle] at hn
        · simp [hidle] at hn
    · rw [List.filter_cons_of_pos (by simp [hidle]), ← List.singleton_append,
        ← List.singleton_append (l := names), leads_append, leads_append]
      simp only [ih]

/-! ### Counting links -/

/-- Whether the target of the link at a place leads somewhere with links nested less deep. -/
def IsShallow (root : Entry) (d : Nat) (place : List String) : Prop :=
  ∃ target mid, root.get? place = some (.link target) ∧
    ∃ e < d, Leads root e (linkStart place.dropLast target) (Path.steps target) mid

open Classical in
/-- How many links there are whose target leads somewhere with links nested less deep. -/
noncomputable def shallowLinks (root : Entry) (d : Nat) : Nat :=
  (root.places Entry.isLink).countP (fun place => decide (IsShallow root d place))

theorem IsShallow.mono {d e : Nat} {place : List String} (h : IsShallow root d place)
    (hde : d ≤ e) : IsShallow root e place := by
  obtain ⟨target, mid, hlink, i, hi, hleads⟩ := h
  exact ⟨target, mid, hlink, i, by omega, hleads⟩

theorem shallowLinks_le (root : Entry) (d : Nat) : shallowLinks root d ≤ root.links := by
  rw [← Entry.length_places_isLink]
  exact List.countP_le_length

/-- A link is not among those that are nested less deep than itself. -/
theorem shallowLinks_lt {d e : Nat} {place : List String} {target : String} (hde : d ≤ e)
    (hlink : root.get? place = some (.link target)) (hd : ¬ IsShallow root d place)
    (he : IsShallow root e place) : shallowLinks root d < shallowLinks root e := by
  classical
  have hmem : place ∈ root.places Entry.isLink := Entry.mem_places hlink List.mem_cons_self
  obtain ⟨before, after, hsplit⟩ := List.append_of_mem hmem
  have hmono (ps : List (List String)) : ps.countP (fun p => decide (IsShallow root d p)) ≤
      ps.countP (fun p => decide (IsShallow root e p)) := by
    apply List.countP_mono_left
    intro p _ hp
    exact decide_eq_true ((of_decide_eq_true hp).mono hde)
  rw [shallowLinks, shallowLinks, hsplit, List.countP_append, List.countP_append,
    List.countP_cons_of_neg (by simpa using hd), List.countP_cons_of_pos (by simpa using he)]
  have hb := hmono before
  have ha := hmono after
  omega

/-- Links need not be nested deeper than there are links that are nested less deep. -/
theorem Leads.shallow {d : Nat} {here names place : List String}
    (h : Leads root d here names place) :
    Leads root (shallowLinks root d) here names place := by
  classical
  -- On the depth, and inside it along the names: a link is replaced by the shallowest way to the
  -- end of its target, and on that way there are fewer shallow links than before the link.
  induction d using Nat.strongRecOn generalizing here names place with
  | _ d ih =>
    induction h with
    | arrived => exact .arrived
    | idle hn _ ihr => exact .idle hn (ihr ih)
    | up _ ihr => exact .up (ihr ih)
    | enter hn hup hlink _ ihr => exact .enter hn hup hlink (ihr ih)
    | @follow d here rest mid place n target hn hup hlink htarget _ _ ihr =>
      have hex : ∃ e, ∃ mid, Leads root e (linkStart here target) (Path.steps target) mid :=
        ⟨d, mid, htarget⟩
      have hle : Nat.find hex ≤ d := Nat.find_min' hex ⟨mid, htarget⟩
      obtain ⟨mid', hleast⟩ := Nat.find_spec hex
      obtain rfl : mid' = mid := hleast.unique htarget
      have hneg : ¬ IsShallow root (Nat.find hex) (here ++ [n]) := by
        rintro ⟨t, m, ht, e, he, hleads⟩
        rw [hlink] at ht
        cases ht
        rw [List.dropLast_concat] at hleads
        exact Nat.find_min hex he ⟨m, hleads⟩
      have hpos : IsShallow root (d + 1) (here ++ [n]) :=
        ⟨target, mid', hlink, Nat.find hex, by omega, by rwa [List.dropLast_concat]⟩
      have hlt := shallowLinks_lt (by omega) hlink hneg hpos
      have htarget' := ih (Nat.find hex) (by omega) hleast
      obtain ⟨k, hk⟩ : ∃ k, shallowLinks root (d + 1) = k + 1 :=
        ⟨shallowLinks root (d + 1) - 1, by omega⟩
      have hrest := ihr ih
      rw [hk] at hrest ⊢
      exact .follow hn hup hlink (htarget'.mono (by omega)) hrest

/-- Where names lead at all they lead with links nested as deep as there are links. -/
theorem Leads.real_links {d : Nat} {here names place : List String}
    (h : Leads root d here names place) : FileSystem.real root root.links here names = place :=
  (h.shallow.mono (shallowLinks_le root d)).real

/-! ### Without loops -/

/-- Whether every link leads somewhere: following it ends. -/
def LoopFree (root : Entry) : Prop :=
  ∀ dir n target, root.get? (dir ++ [n]) = some (.link target) →
    ∃ d place, Leads root d (linkStart dir target) (Path.steps target) place

/-- Without loops all names lead somewhere. -/
theorem LoopFree.leads (h : LoopFree root) (here names : List String) :
    ∃ d place, Leads root d here names place := by
  induction names generalizing here with
  | nil => exact ⟨0, here, .arrived⟩
  | cons n names ih =>
    by_cases hidle : Path.isIdle n = true
    · obtain ⟨d, place, hrest⟩ := ih here
      exact ⟨d, place, .idle hidle hrest⟩
    have hn : Path.isIdle n = false := by simpa using hidle
    by_cases hup : n = ".."
    · obtain ⟨d, place, hrest⟩ := ih here.dropLast
      exact ⟨d, place, hup ▸ .up hrest⟩
    by_cases hlink : ∃ target, root.get? (here ++ [n]) = some (.link target)
    · obtain ⟨target, hlink⟩ := hlink
      obtain ⟨i, mid, htarget⟩ := h here n target hlink
      obtain ⟨j, place, hrest⟩ := ih mid
      exact ⟨max i j + 1, place, .follow hn hup hlink (htarget.mono (Nat.le_max_left i j))
        (hrest.mono (by omega))⟩
    · obtain ⟨d, place, hrest⟩ := ih (here ++ [n])
      exact ⟨d, place, .enter hn hup (fun target ht => hlink ⟨target, ht⟩) hrest⟩

/-! ### Places without links -/

/-- Whether a place is its own real path: its names are plain, and none of them leads to a link. -/
structure Canonical (root : Entry) (place : List String) : Prop where
  plain : ∀ n ∈ place, Path.IsPlain n
  direct : ∀ dir target, dir <+: place → root.get? dir ≠ some (.link target)

theorem canonical_iff {place : List String} : Canonical root place ↔ (∀ n ∈ place, Path.IsPlain n) ∧
    ∀ dir ∈ place.inits, (root.get? dir).any Entry.isLink = false := by
  have hlink (dir : List String) : (root.get? dir).any Entry.isLink = false ↔
      ∀ target, root.get? dir ≠ some (.link target) := by
    cases root.get? dir with
    | none => simp
    | some e => cases e <;> simp [Entry.isLink]
  simp only [hlink, List.mem_inits]
  constructor
  · intro h
    exact ⟨h.plain, fun dir hdir target => h.direct dir target hdir⟩
  · intro h
    exact ⟨h.1, fun dir target hdir => h.2 dir hdir target⟩

instance (root : Entry) (place : List String) : Decidable (Canonical root place) :=
  decidable_of_iff _ canonical_iff.symm

theorem Canonical.of_prefix {place above : List String} (h : Canonical root place)
    (ha : above <+: place) : Canonical root above where
  plain n hn := h.plain n (ha.sublist.mem hn)
  direct dir target hdir := h.direct dir target (hdir.trans ha)

theorem Canonical.concat {place : List String} (h : Canonical root place) {n : String}
    (hn : Path.IsPlain n) (hlink : ∀ target, root.get? (place ++ [n]) ≠ some (.link target)) :
    Canonical root (place ++ [n]) where
  plain m hm := by
    rcases List.mem_append.mp hm with hm | hm
    · exact h.plain m hm
    · exact List.mem_singleton.mp hm ▸ hn
  direct dir target hdir := by
    rcases List.prefix_concat_iff.mp hdir with rfl | hdir
    · exact hlink target
    · exact h.direct dir target hdir

theorem Canonical.linkStart {here : List String} (h : Canonical root here) (target : String) :
    Canonical root (linkStart here target) := by
  unfold FileSystem.linkStart
  split_ifs
  · exact h.of_prefix List.nil_prefix
  · exact h

/-- Names lead from a place without links to a place without links. -/
theorem Leads.canonical {d : Nat} {here names place : List String}
    (h : Leads root d here names place) (hhere : Canonical root here)
    (hnames : ∀ n ∈ names, '/' ∉ n.toList) : Canonical root place := by
  induction h with
  | arrived => exact hhere
  | idle _ _ ih => exact ih hhere (List.forall_mem_of_forall_mem_cons hnames)
  | up _ ih =>
    exact ih (hhere.of_prefix (List.dropLast_prefix _)) (List.forall_mem_of_forall_mem_cons hnames)
  | enter hn hup hlink _ ih =>
    have hplain : Path.IsPlain _ := ⟨hn, hup, hnames _ List.mem_cons_self⟩
    exact ih (hhere.concat hplain hlink) (List.forall_mem_of_forall_mem_cons hnames)
  | follow _ _ _ _ _ iht ihr =>
    have hmid := iht (hhere.linkStart _) (fun _ => Path.slash_not_mem_steps)
    exact ihr hmid (List.forall_mem_of_forall_mem_cons hnames)

/-- A place without links is where its own names lead. -/
theorem Canonical.leads {here names : List String} (h : Canonical root (here ++ names)) :
    Leads root 0 here names (here ++ names) := by
  induction names generalizing here with
  | nil =>
    rw [List.append_nil]
    exact .arrived
  | cons n names ih =>
    have hsplit : here ++ n :: names = (here ++ [n]) ++ names := by simp
    have hplain := h.plain n (by simp)
    have hlink (target : String) : root.get? (here ++ [n]) ≠ some (.link target) :=
      h.direct _ target ⟨names, hsplit.symm⟩
    rw [hsplit] at h ⊢
    exact .enter hplain.1 hplain.2.1 hlink (ih h)

end FileSystem
end PropAtlas
