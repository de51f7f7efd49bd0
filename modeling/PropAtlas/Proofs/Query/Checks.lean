import PropAtlas.Proofs.Query.Rules

/-! Checks that stop at the first broken rule, one after another. -/

namespace PropAtlas.Query

/-- A broken rule hides those that come later. -/
theorem first_or_iff_left {broken later : Fault → Prop} {f g : Fault} (hg : broken g)
    (horder : ∀ f g, broken f → later g → f.position < g.position) :
    First (fun f => broken f ∨ later f) f ↔ First broken f := by
  constructor
  · rintro ⟨hf | hf, hfirst⟩
    · exact ⟨hf, fun f' hf' => hfirst f' (.inl hf')⟩
    · have hlt := horder g f hg hf
      have hle := hfirst g (.inl hg)
      omega
  · rintro ⟨hf, hfirst⟩
    refine ⟨.inl hf, ?_⟩
    rintro f' (hf' | hf')
    · exact hfirst f' hf'
    · exact Nat.le_of_lt (horder f f' hf hf')

theorem first_or_iff_right {broken later : Fault → Prop} {f : Fault} (hnone : ∀ f, ¬ broken f) :
    First (fun f => broken f ∨ later f) f ↔ First later f := by
  simp only [First, hnone, false_or]

/-- A check of the rules from one position up to another gives what is meant, or the first broken
rule. -/
structure Checks {α : Type} (lo hi : Nat) (r : Except Fault α) (broken : Fault → Prop)
    (means : α → Prop) : Prop where
  le : lo ≤ hi
  range : ∀ f, broken f → lo ≤ f.position ∧ f.position < hi
  ok_iff : ∀ a, r = .ok a ↔ means a
  sound : ∀ a, r = .ok a → ∀ f, ¬ broken f
  error_iff : ∀ f, r = .error f ↔ First broken f

theorem bind_eq_ok_iff {ε α β : Type} {r : Except ε α} {next : α → Except ε β} {b : β} :
    r >>= next = .ok b ↔ ∃ a, r = .ok a ∧ next a = .ok b := by
  cases r with
  | error f => exact ⟨nofun, nofun⟩
  | ok a =>
    constructor
    · intro hb
      exact ⟨a, rfl, hb⟩
    · rintro ⟨a', ha, hb⟩
      rwa [Except.ok.inj ha]

namespace Checks

variable {α β : Type} {lo mid hi : Nat} {r : Except Fault α} {broken broken' : Fault → Prop}
  {means means' : α → Prop}

theorem congr (h : Checks lo hi r broken means) (hbroken : ∀ f, broken f ↔ broken' f)
    (hmeans : ∀ a, means a ↔ means' a) : Checks lo hi r broken' means' := by
  rwa [← funext fun f => propext (hbroken f), ← funext fun a => propext (hmeans a)]

theorem widen {lo' hi' : Nat} (h : Checks lo hi r broken means) (hlo : lo' ≤ lo) (hhi : hi ≤ hi') :
    Checks lo' hi' r broken means := by
  refine ⟨by have := h.le; omega, ?_, h.ok_iff, h.sound, h.error_iff⟩
  intro f hf
  have := h.range f hf
  omega

theorem pure (n : Nat) (a : α) : Checks n n (.ok a) (fun _ => False) (· = a) where
  le := Nat.le_refl n
  range _ h := h.elim
  ok_iff b := by rw [Except.ok.injEq, eq_comm]
  sound _ _ _ := id
  error_iff _ := ⟨nofun, fun h => h.1.elim⟩

/-- One check after another. -/
theorem bind [Nonempty α] {next : α → Except Fault β} {later : Fault → Prop} {means' : α → β → Prop}
    (h : Checks lo mid r broken means) (hnext : ∀ a, Checks mid hi (next a) later (means' a)) :
    Checks lo hi (r >>= next) (fun f => broken f ∨ later f)
      (fun b => ∃ a, means a ∧ means' a b) := by
  -- The rules of the second check do not depend on what the first one gives, so any value shows them.
  obtain ⟨a₀⟩ := ‹Nonempty α›
  have hlo := h.le
  have hhi := (hnext a₀).le
  have hrange := (hnext a₀).range
  refine ⟨Nat.le_trans hlo hhi, ?_, ?_, ?_, ?_⟩
  · rintro f (hf | hf)
    · have := h.range f hf
      omega
    · have := hrange f hf
      omega
  · intro b
    rw [bind_eq_ok_iff]
    simp only [h.ok_iff, (hnext _).ok_iff]
  · intro b hb f hf
    obtain ⟨a, ha, hb⟩ := bind_eq_ok_iff.mp hb
    rcases hf with hf | hf
    · exact h.sound a ha f hf
    · exact (hnext a).sound b hb f hf
  · intro f
    cases hr : r with
    | error g =>
      have horder : ∀ f g, broken f → later g → f.position < g.position := by
        intro f g hf hg
        have := h.range f hf
        have := hrange g hg
        omega
      rw [first_or_iff_left ((h.error_iff g).mp hr).1 horder, ← h.error_iff, hr, Except.error.injEq]
      constructor
      · exact Except.error.inj
      · rintro rfl
        rfl
    | ok a =>
      rw [first_or_iff_right (h.sound a hr)]
      exact (hnext a).error_iff f

/-- A single rule: a value is read as what it gives, or breaks the rule. -/
theorem rule {make : Json → Fault} {v : Option Json} {n : Nat}
    (hposition : ∀ j, (make j).position = n)
    (hlegal : ∀ j, Legal (make j) v ↔ ∃ a, means a)
    (hunique : ∀ j k, BrokenBy v (make j) → BrokenBy v (make k) → make j = make k)
    (hok : ∀ a, means a → r = .ok a)
    (herror : (∀ a, ¬ means a) → ∃ j, r = .error (make j) ∧ ∀ k ∈ (make j).given?, v = some k) :
    Checks n (n + 1) r (Breaks make v) means := by
  have hrange : ∀ f, Breaks make v f → n ≤ f.position ∧ f.position < n + 1 := by
    rintro _ ⟨j, rfl, -⟩
    rw [hposition]
    omega
  by_cases hmeans : ∃ a, means a
  · obtain ⟨a, ha⟩ := hmeans
    rw [hok a ha]
    have hsound : ∀ f, ¬ Breaks make v f := by
      rintro _ ⟨j, rfl, hbroken⟩
      exact hbroken.illegal ((hlegal j).mpr ⟨a, ha⟩)
    refine ⟨Nat.le_succ n, hrange, ?_, fun _ _ => hsound, ?_⟩
    · intro b
      constructor
      · intro hb
        rwa [← Except.ok.inj hb]
      · intro hb
        rw [← hok a ha, hok b hb]
    · intro f
      exact ⟨nofun, fun h => absurd h.1 (hsound f)⟩
  · obtain ⟨j, hr, hgiven⟩ := herror (not_exists.mp hmeans)
    rw [hr]
    refine ⟨Nat.le_succ n, hrange, ?_, nofun, ?_⟩
    · intro a
      exact ⟨nofun, fun ha => absurd ⟨a, ha⟩ hmeans⟩
    · have hbroken : BrokenBy v (make j) := ⟨(hlegal j).not.mpr hmeans, hgiven⟩
      intro f
      constructor
      · intro hf
        rw [← Except.error.inj hf]
        refine ⟨⟨j, rfl, hbroken⟩, ?_⟩
        rintro _ ⟨k, rfl, -⟩
        exact Nat.le_of_eq ((hposition j).trans (hposition k).symm)
      · rintro ⟨⟨k, rfl, hk⟩, -⟩
        rw [hunique j k hbroken hk]

theorem refused {make : Json → Fault} {v : Option Json} {n : Nat}
    (hposition : ∀ j, (make j).position = n)
    (hunique : ∀ j k, BrokenBy v (make j) → BrokenBy v (make k) → make j = make k)
    (hlegal : ∀ j, ¬ Legal (make j) v) (hmeans : ∀ a, ¬ means a)
    (herror : ∃ j, r = .error (make j) ∧ ∀ k ∈ (make j).given?, v = some k) :
    Checks n (n + 1) r (Breaks make v) means := by
  refine rule hposition ?_ hunique ?_ (fun _ => herror)
  · intro j
    exact iff_of_false (hlegal j) (not_exists.mpr hmeans)
  · intro a ha
    exact absurd ha (hmeans a)

end Checks

end PropAtlas.Query
