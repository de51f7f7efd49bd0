import PropAtlas.FileSystem.Host
import Mathlib.Data.List.Basic

/-! Home directories. A path that starts with a tilde, perhaps followed by the name of a user, is read
from a home directory. A user who is not known has none, and then the path spells nothing. -/

namespace PropAtlas.Host

/-- Whether a text names the home directory of a user. No name stands for the one who runs the
program. -/
inductive Home (h : Host) : (user text : String) → Prop where
  | own : Home h "" h.home
  | other {user text : String} (hname : user ≠ "") (huser : h.users.get? user = some text) :
      Home h user text

/-- Whether a home directory stands for a path. One that is nothing but slashes is the root, and one that
starts with a tilde is of no use. -/
inductive IsHomePath (text : String) : Path → Prop where
  | root (hslashes : ∀ c ∈ text.toList, c = '/') : IsHomePath text (.absolute [])
  | place (hsome : ∃ c ∈ text.toList, c ≠ '/') (htilde : text.toList.head? ≠ some '~') :
      IsHomePath text (.ofString text)

/-- Whether a path comes to stand for another one when home directories are put in. -/
inductive Expands (h : Host) : (p q : Path) → Prop where
  | literal {p : Path} (hp : ∀ user rest, p ≠ ⟨.here, ("~" ++ user) :: rest⟩) : Expands h p p
  | home {user text : String} {rest : List String} {dir : Path} (hhome : h.Home user text)
      (hdir : IsHomePath text dir) :
      Expands h ⟨.here, ("~" ++ user) :: rest⟩ ⟨dir.anchor, dir.names ++ rest⟩

variable {h : Host} {p q : Path} {user text : String}

theorem homeOf_eq_some_iff : h.homeOf user = some text ↔ h.Home user text := by
  unfold homeOf
  constructor
  · intro hhome
    split_ifs at hhome with hempty
    · cases hhome
      rw [String.isEmpty_iff.mp hempty]
      exact .own
    · exact .other (fun hname => hempty (String.isEmpty_iff.mpr hname)) hhome
  · intro hhome
    cases hhome with
    | own => rfl
    | other hname huser => rw [if_neg (fun hempty => hname (String.isEmpty_iff.mp hempty)), huser]

theorem homePath_eq_ok_iff : homePath text = .ok q ↔ IsHomePath text q := by
  have hall : text.toList.all (· == '/') = true ↔ ∀ c ∈ text.toList, c = '/' := by simp
  unfold homePath
  constructor
  · intro hq
    split_ifs at hq with htilde hslashes
    · cases hq
      exact .root (hall.mp hslashes)
    · cases hq
      refine .place ?_ htilde
      simpa [hall] using hslashes
  · intro hq
    cases hq with
    | root hslashes =>
      rw [if_neg, if_pos (hall.mpr hslashes)]
      · rfl
      · intro htilde
        cases hslashes '~' (List.mem_of_head? htilde)
    | place hsome htilde =>
      rw [if_neg htilde, if_neg]
      intro hslashes
      obtain ⟨c, hc, hne⟩ := hsome
      exact hne (hall.mp hslashes c hc)

theorem expandHome_tilde (user : String) (rest : List String) :
    h.expandHome ⟨.here, ("~" ++ user) :: rest⟩ =
      ((h.homeOf user).elim (.error .unknown) homePath).map
        (fun dir => ⟨dir.anchor, dir.names ++ rest⟩) := by
  have hfirst : ("~" ++ user).toList = '~' :: user.toList := by simp
  unfold expandHome
  simp only [hfirst, String.ofList_toList]
  cases h.homeOf user with
  | none => rfl
  | some text =>
    dsimp only [Option.elim]
    cases homePath text with
    | error f => rfl
    | ok dir => rfl

theorem expandHome_literal (hp : ∀ user rest, p ≠ ⟨.here, ("~" ++ user) :: rest⟩) :
    h.expandHome p = .ok p := by
  unfold expandHome
  split
  · rename_i first rest hanchor hnames
    split
    · rename_i user hfirst
      exfalso
      apply hp (String.ofList user) rest
      have hname : first = "~" ++ String.ofList user := by
        rw [← String.toList_inj, hfirst]
        simp
      rw [← hname, ← hanchor, ← hnames]
    · rfl
  · rfl

/-- Home directories are put in as they should be. -/
theorem expandHome_eq_ok_iff : h.expandHome p = .ok q ↔ h.Expands p q := by
  by_cases hp : ∀ user rest, p ≠ ⟨.here, ("~" ++ user) :: rest⟩
  · rw [expandHome_literal hp]
    constructor
    · intro hq
      cases hq
      exact .literal hp
    · intro hq
      cases hq with
      | literal _ => rfl
      | home _ _ => exact absurd rfl (hp _ _)
  · obtain ⟨user, rest, rfl⟩ : ∃ user rest, p = ⟨.here, ("~" ++ user) :: rest⟩ := by
      simpa using hp
    rw [expandHome_tilde]
    constructor
    · intro hq
      cases hhome : h.homeOf user with
      | none =>
        rw [hhome] at hq
        cases hq
      | some text =>
        rw [hhome] at hq
        cases hdir : homePath text with
        | error f =>
          rw [Option.elim_some, hdir] at hq
          cases hq
        | ok dir =>
          rw [Option.elim_some, hdir] at hq
          cases hq
          exact .home (homeOf_eq_some_iff.mp hhome) (homePath_eq_ok_iff.mp hdir)
    · intro hq
      -- A path that starts with a tilde is not literal, and its first name determines the user.
      generalize hsame : (⟨.here, ("~" ++ user) :: rest⟩ : Path) = p at hq
      cases hq with
      | literal hp => exact absurd hsame.symm (hp user rest)
      | @home user' text rest' dir hhome hdir =>
        simp only [Path.mk.injEq, true_and, List.cons.injEq] at hsame
        obtain ⟨huser, rfl⟩ := hsame
        rw [String.append_right_inj] at huser
        subst huser
        rw [homeOf_eq_some_iff.mpr hhome, Option.elim_some, homePath_eq_ok_iff.mpr hdir]
        rfl

end PropAtlas.Host
