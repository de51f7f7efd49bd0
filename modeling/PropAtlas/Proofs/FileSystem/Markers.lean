import PropAtlas.FileSystem.Discovery
import Mathlib.Data.List.Basic

/-! Project markers. They are looked up in turn, directory by directory. A search ends at the first one
that cannot be looked up because a name is too long, and then there is no project at all. -/

namespace PropAtlas.Host
open FileSystem

variable {h : Host} {place : List String} {places marked : List (List String)} {f : SearchFault}

/-- Whether a project marker stands at a place. -/
def Marked (h : Host) (place : List String) : Prop :=
  ∃ m ∈ projectMarkers, ∃ e, h.stat (markerPath place m) = .ok e

/-- Whether the search at a place ends at a marker because a name is too long: none before it stands
there. -/
def StuckAt (h : Host) (place : List String) (m : String) : Prop :=
  h.stat (markerPath place m) = .error .nameTooLong ∧
    ∃ before after, projectMarkers = before ++ m :: after ∧
      ∀ b ∈ before, ∃ f, h.stat (markerPath place b) = .error f ∧ f ≠ .nameTooLong

/-! ### One directory -/

theorem exists?_eq_true_iff {path : String} :
    h.exists? path = .ok true ↔ ∃ e, h.stat path = .ok e := by
  unfold exists?
  cases hs : h.stat path with
  | ok e => simp
  | error f => cases f <;> simp

theorem exists?_eq_false_iff {path : String} :
    h.exists? path = .ok false ↔ ∃ f, h.stat path = .error f ∧ f ≠ .nameTooLong := by
  unfold exists?
  cases hs : h.stat path with
  | ok e => simp
  | error f => cases f <;> simp

theorem exists?_eq_error_iff {path : String} {f : Fault} :
    h.exists? path = .error f ↔ f = .nameTooLong ∧ h.stat path = .error .nameTooLong := by
  unfold exists?
  cases hs : h.stat path with
  | ok e => simp
  | error g => cases g <;> simp [eq_comm]

/-- Markers that are not there do not matter. -/
theorem hasMarker_append {before : List String} (rest : List String)
    (habsent : ∀ b ∈ before, h.exists? (markerPath place b) = .ok false) :
    h.hasMarker place (before ++ rest) = h.hasMarker place rest := by
  induction before with
  | nil => rfl
  | cons b before ih =>
    rw [List.cons_append, hasMarker, habsent b List.mem_cons_self]
    exact ih (List.forall_mem_of_forall_mem_cons habsent)

/-- The search goes past markers that are not there and ends at one that is, at one that cannot be looked
up, or after the last. -/
theorem hasMarker_cases (h : Host) (place markers : List String) :
    (∀ b ∈ markers, h.exists? (markerPath place b) = .ok false) ∨
      ∃ before m after, markers = before ++ m :: after ∧
        (∀ b ∈ before, h.exists? (markerPath place b) = .ok false) ∧
        (h.exists? (markerPath place m) = .ok true ∨
          h.exists? (markerPath place m) = .error .nameTooLong) := by
  induction markers with
  | nil => exact .inl nofun
  | cons m markers ih =>
    cases hm : h.exists? (markerPath place m) with
    | error f =>
      obtain ⟨rfl, _⟩ := exists?_eq_error_iff.mp hm
      exact .inr ⟨[], m, markers, rfl, nofun, .inr hm⟩
    | ok found =>
      cases found with
      | true => exact .inr ⟨[], m, markers, rfl, nofun, .inl hm⟩
      | false =>
        rcases ih with hnone | ⟨before, m', after, rfl, hbefore, hend⟩
        · exact .inl (List.forall_mem_cons.mpr ⟨hm, hnone⟩)
        · exact .inr ⟨m :: before, m', after, rfl, List.forall_mem_cons.mpr ⟨hm, hbefore⟩, hend⟩

theorem hasMarker_found {before after : List String} {m : String}
    (hbefore : ∀ b ∈ before, h.exists? (markerPath place b) = .ok false)
    (hm : h.exists? (markerPath place m) = .ok true) :
    h.hasMarker place (before ++ m :: after) = .ok true := by
  rw [hasMarker_append _ hbefore, hasMarker, hm]

theorem hasMarker_stuck {before after : List String} {m : String}
    (hbefore : ∀ b ∈ before, h.exists? (markerPath place b) = .ok false)
    (hm : h.exists? (markerPath place m) = .error .nameTooLong) :
    h.hasMarker place (before ++ m :: after) = .error (.marker (markerPath place m) .nameTooLong) := by
  rw [hasMarker_append _ hbefore, hasMarker, hm]

/-- What the search says of a place: a marker is there, there is none, or it got stuck. -/
theorem hasMarker_outcome (h : Host) (place : List String) :
    (h.hasMarker place projectMarkers = .ok true ∧ h.Marked place) ∨
      (h.hasMarker place projectMarkers = .ok false ∧ ¬ h.Marked place) ∨
      ∃ m, h.StuckAt place m ∧
        h.hasMarker place projectMarkers = .error (.marker (markerPath place m) .nameTooLong) := by
  rcases hasMarker_cases h place projectMarkers with hnone | ⟨before, m, after, hsplit, hbefore, hend⟩
  · refine .inr (.inl ⟨?_, ?_⟩)
    · have hall := hasMarker_append [] hnone
      rwa [List.append_nil] at hall
    · rintro ⟨m, hm, e, he⟩
      obtain ⟨f, hf, _⟩ := exists?_eq_false_iff.mp (hnone m hm)
      rw [he] at hf
      cases hf
  · rcases hend with hfound | hstuck
    · refine .inl ⟨hsplit ▸ hasMarker_found hbefore hfound, m, ?_, exists?_eq_true_iff.mp hfound⟩
      exact hsplit ▸ List.mem_append_right _ List.mem_cons_self
    · refine .inr (.inr ⟨m, ⟨(exists?_eq_error_iff.mp hstuck).2, before, after, hsplit, ?_⟩,
        hsplit ▸ hasMarker_stuck hbefore hstuck⟩)
      exact fun b hb => exists?_eq_false_iff.mp (hbefore b hb)

theorem hasMarker_of_stuckAt {m : String} (hstuck : h.StuckAt place m) :
    h.hasMarker place projectMarkers = .error (.marker (markerPath place m) .nameTooLong) := by
  obtain ⟨hm, before, after, hsplit, hbefore⟩ := hstuck
  rw [hsplit]
  exact hasMarker_stuck (fun b hb => exists?_eq_false_iff.mpr (hbefore b hb))
    (exists?_eq_error_iff.mpr ⟨rfl, hm⟩)

theorem hasMarker_eq_error_iff :
    h.hasMarker place projectMarkers = .error f ↔
      ∃ m, h.StuckAt place m ∧ f = .marker (markerPath place m) .nameTooLong := by
  constructor
  · intro hf
    rcases hasMarker_outcome h place with ⟨hok, _⟩ | ⟨hok, _⟩ | ⟨m, hstuck, herr⟩
    · rw [hok] at hf
      cases hf
    · rw [hok] at hf
      cases hf
    · rw [herr] at hf
      exact ⟨m, hstuck, (Except.error.inj hf).symm⟩
  · rintro ⟨m, hstuck, rfl⟩
    exact hasMarker_of_stuckAt hstuck

theorem exists_hasMarker_eq_ok_iff :
    (∃ found, h.hasMarker place projectMarkers = .ok found) ↔ ∀ m, ¬ h.StuckAt place m := by
  constructor
  · rintro ⟨found, hok⟩ m hstuck
    rw [hasMarker_of_stuckAt hstuck] at hok
    cases hok
  · intro hfree
    cases hm : h.hasMarker place projectMarkers with
    | ok found => exact ⟨found, rfl⟩
    | error f =>
      obtain ⟨m, hstuck, _⟩ := hasMarker_eq_error_iff.mp hm
      exact absurd hstuck (hfree m)

theorem marked_iff_of_hasMarker {found : Bool} (hok : h.hasMarker place projectMarkers = .ok found) :
    h.Marked place ↔ found = true := by
  rcases hasMarker_outcome h place with ⟨htrue, hmarked⟩ | ⟨hfalse, hfree⟩ | ⟨m, _, herr⟩
  · rw [htrue] at hok
    cases hok
    exact iff_of_true hmarked rfl
  · rw [hfalse] at hok
    cases hok
    exact iff_of_false hfree nofun
  · rw [herr] at hok
    cases hok

/-! ### Several directories -/

/-- A search through several places looks at the first and, if it does not get stuck there, at the
rest. -/
theorem markedPlaces_cons_eq_ok (hm : h.markedPlaces (place :: places) = .ok marked) :
    ∃ found rest, h.hasMarker place projectMarkers = .ok found ∧ h.markedPlaces places = .ok rest ∧
      marked = if found then place :: rest else rest := by
  rw [markedPlaces] at hm
  cases hplace : h.hasMarker place projectMarkers with
  | error f =>
    rw [hplace] at hm
    cases hm
  | ok found =>
    rw [hplace] at hm
    cases hrest : h.markedPlaces places with
    | error f =>
      rw [hrest] at hm
      cases hm
    | ok rest =>
      rw [hrest] at hm
      exact ⟨found, rest, rfl, rfl, (Except.ok.inj hm).symm⟩

theorem markedPlaces_cons_eq_error_iff :
    h.markedPlaces (place :: places) = .error f ↔
      h.hasMarker place projectMarkers = .error f ∨
        (∃ found, h.hasMarker place projectMarkers = .ok found) ∧ h.markedPlaces places = .error f := by
  rw [markedPlaces]
  cases h.hasMarker place projectMarkers with
  | error g => simp [bind, Except.bind]
  | ok found => cases h.markedPlaces places <;> simp [bind, Except.bind, pure, Except.pure]

theorem mem_markedPlaces_iff (hm : h.markedPlaces places = .ok marked) :
    place ∈ marked ↔ place ∈ places ∧ h.Marked place := by
  induction places generalizing marked with
  | nil =>
    cases hm
    simp
  | cons p places ih =>
    -- The first place did not get stuck, so what was found there is whether it is marked.
    obtain ⟨found, rest, hp, hrest, rfl⟩ := markedPlaces_cons_eq_ok hm
    have hmarked := marked_iff_of_hasMarker hp
    have hmem := ih hrest
    cases found with
    | true => grind
    | false => grind

/-- What holds of all places before one holds of the first and of those before it among the rest. -/
theorem forall_nearer_cons {P : List String → Prop} {k : Nat} :
    (∀ j < k + 1, ∀ q, (place :: places)[j]? = some q → P q) ↔
      P place ∧ ∀ j < k, ∀ q, places[j]? = some q → P q := by
  constructor
  · intro hall
    exact ⟨hall 0 k.succ_pos place rfl, fun j hj q hq => hall (j + 1) (Nat.succ_lt_succ hj) q hq⟩
  · rintro ⟨hfirst, hrest⟩ j hj q hq
    cases j with
    | zero =>
      cases hq
      exact hfirst
    | succ j => exact hrest j (Nat.lt_of_succ_lt_succ hj) q hq

/-- The first of the marked places is the first place with a marker. -/
theorem head?_markedPlaces (hm : h.markedPlaces places = .ok marked) :
    (marked.head? = none ∧ ∀ p ∈ places, ¬ h.Marked p) ∨
      ∃ (k : Nat) (p : List String), places[k]? = some p ∧ marked.head? = some p ∧ h.Marked p ∧
        ∀ j < k, ∀ q, places[j]? = some q → ¬ h.Marked q := by
  induction places generalizing marked with
  | nil =>
    cases hm
    exact .inl ⟨rfl, nofun⟩
  | cons p places ih =>
    obtain ⟨found, rest, hp, hrest, rfl⟩ := markedPlaces_cons_eq_ok hm
    have hmarked := marked_iff_of_hasMarker hp
    cases found with
    | true => exact .inr ⟨0, p, rfl, rfl, hmarked.mpr rfl, nofun⟩
    | false =>
      have hfree : ¬ h.Marked p := fun hp => Bool.noConfusion (hmarked.mp hp)
      rcases ih hrest with ⟨hhead, hnone⟩ | ⟨k, q, hk, hhead, hq, hnearer⟩
      · exact .inl ⟨hhead, List.forall_mem_cons.mpr ⟨hfree, hnone⟩⟩
      · exact .inr ⟨k + 1, q, hk, hhead, hq, forall_nearer_cons.mpr ⟨hfree, hnearer⟩⟩

/-- The search fails where it first gets stuck, and only there. -/
theorem markedPlaces_eq_error_iff :
    h.markedPlaces places = .error f ↔
      ∃ (k : Nat) (p : List String) (m : String), places[k]? = some p ∧ h.StuckAt p m ∧
        f = .marker (markerPath p m) .nameTooLong ∧
        ∀ j < k, ∀ q, places[j]? = some q → ∀ m, ¬ h.StuckAt q m := by
  induction places with
  | nil => simp [markedPlaces]
  | cons p places ih =>
    rw [markedPlaces_cons_eq_error_iff, hasMarker_eq_error_iff, ih, exists_hasMarker_eq_ok_iff]
    constructor
    · rintro (⟨m, hm, rfl⟩ | ⟨hp, k, q, m, hk, hq, rfl, hnearer⟩)
      · exact ⟨0, p, m, rfl, hm, rfl, nofun⟩
      · exact ⟨k + 1, q, m, hk, hq, rfl, forall_nearer_cons.mpr ⟨hp, hnearer⟩⟩
    · rintro ⟨k, q, m, hk, hq, rfl, hnearer⟩
      cases k with
      | zero =>
        cases hk
        exact .inl ⟨m, hq, rfl⟩
      | succ k =>
        obtain ⟨hp, hrest⟩ := forall_nearer_cons.mp hnearer
        exact .inr ⟨hp, k, q, m, hk, hq, rfl, hrest⟩

end PropAtlas.Host
