import PropAtlas.Proofs.Text.LetterCase
import Mathlib.Data.List.Chain

/-! Lower case. The tables give every letter its small form. Only capital sigma looks around: at the end
of a word it has a form of its own. -/

namespace PropAtlas.LetterCase

/-- Whether the tables make some characters of a letter. -/
inductive Small (c : Char) : List Char → Prop where
  | several {ns : List Nat} (hmem : (c.toNat, ns) ∈ lowerSequences) : Small c (ns.map Char.ofNat)
  | moved {run : Run} (hone : ∀ ns, (c.toNat, ns) ∉ lowerSequences) (hrun : run ∈ lowerRuns)
      (hc : run.Holds c.toNat) : Small c [Char.ofNat (c.toNat + run.2.2.2).toNat]
  | unmoved (hone : ∀ ns, (c.toNat, ns) ∉ lowerSequences)
      (hnone : ∀ run ∈ lowerRuns, ¬ Run.Holds run c.toNat) : Small c [c]

/-- Whether some characters start with a letter that has a case, but for characters that are passed
over. -/
def StartsWord (cs : List Char) : Prop :=
  ∃ gap letter rest, cs = gap ++ letter :: rest ∧ (∀ c ∈ gap, isIgnorable c = true) ∧
    isIgnorable letter = false ∧ isCased letter = true

/-- Whether a word ends between what stands before and what stands after. -/
def EndsWord (before after : List Char) : Prop := StartsWord before.reverse ∧ ¬ StartsWord after

/-- What becomes of a character between others. -/
inductive SmallAt (before after : List Char) : Char → List Char → Prop where
  | final (hend : EndsWord before after) : SmallAt before after 'Σ' ['ς']
  | inside (hinside : ¬ EndsWord before after) : SmallAt before after 'Σ' ['σ']
  | other {c : Char} {ds : List Char} (hc : c ≠ 'Σ') (hsmall : Small c ds) : SmallAt before after c ds

/-- Whether a text is the lower case of another: it is put together from what becomes of each
character. -/
def IsLower (word small : List Char) : Prop :=
  ∃ parts : List (List Char), parts.length = word.length ∧ small = parts.flatten ∧
    ∀ (i : Nat) (c : Char) (ds : List Char), word[i]? = some c → parts[i]? = some ds →
      SmallAt (word.take i) (word.drop (i + 1)) c ds

/-! ### The tables -/

def Run.Before (a b : Run) : Prop := a.1 ≤ a.2.1 ∧ a.2.1 < b.1 ∧ b.1 ≤ b.2.1

instance : DecidableRel Run.Before := fun a b =>
  inferInstanceAs (Decidable (a.1 ≤ a.2.1 ∧ a.2.1 < b.1 ∧ b.1 ≤ b.2.1))

instance : Trans Run.Before Run.Before Run.Before where
  trans hab hbc := ⟨hab.1, hab.2.1.trans (hab.2.2.trans_lt hbc.2.1), hbc.2.2⟩

set_option maxRecDepth 8000 in
theorem lowerRuns_chain : lowerRuns.IsChain Run.Before := by decide

/-- No two runs have a letter in common. -/
theorem run_unique {a b : Run} {n : Nat} (ha : a ∈ lowerRuns) (hb : b ∈ lowerRuns)
    (hna : a.Holds n) (hnb : b.Holds n) : a = b := by
  have hsame : lowerRuns.Pairwise (fun a b => a.Holds n → b.Holds n → a = b) := by
    refine (List.isChain_iff_pairwise.mp lowerRuns_chain).imp ?_
    rintro a b hab ⟨_, _, hlast⟩ ⟨_, hfirst, _⟩
    have := hab.2.1
    omega
  have hsymm : Std.Symm (fun a b : Run => a.Holds n → b.Holds n → a = b) :=
    ⟨fun _ _ h hb ha => (h ha hb).symm⟩
  exact hsame.forall_of_forall (fun _ _ _ _ => rfl) ha hb hna hnb

theorem lookup_lowerSequences {n : Nat} {ns : List Nat} :
    lowerSequences.lookup n = some ns ↔ (n, ns) ∈ lowerSequences := by
  rw [lowerSequences, List.mem_singleton, List.lookup_cons]
  by_cases hn : n = 0x130
  · simp [hn, eq_comm]
  · rw [beq_eq_false_iff_ne.mpr hn]
    simp [hn]

/-- The tables are read as they are meant: no letter stands in them twice. -/
theorem small_iff {c : Char} {ds : List Char} :
    Small c ds ↔ mapped lowerSequences lowerRuns c = ds := by
  have hlookup {ns : List Nat} : lowerSequences.lookup c.toNat = some ns ↔
      (c.toNat, ns) ∈ lowerSequences := lookup_lowerSequences
  have hnone : (∀ ns, (c.toNat, ns) ∉ lowerSequences) ↔ lowerSequences.lookup c.toNat = none := by
    rw [Option.eq_none_iff_forall_ne_some]
    exact forall_congr' (fun ns => not_congr hlookup.symm)
  rw [mapped]
  constructor
  · intro h
    cases h with
    | several hmem => rw [hlookup.mpr hmem]
    | @moved run hone hrun hc =>
      rw [hnone.mp hone]
      rcases shifted_cases lowerRuns c.toNat with ⟨run', hrun', hc', hshifted⟩ | ⟨_, hfree⟩
      · rw [hshifted, run_unique hrun hrun' hc hc']
      · exact absurd hc (hfree run hrun)
    | unmoved hone hfree =>
      rw [hnone.mp hone]
      rcases shifted_cases lowerRuns c.toNat with ⟨run, hrun, hc, _⟩ | ⟨hshifted, _⟩
      · exact absurd hc (hfree run hrun)
      · rw [hshifted, Char.ofNat_toNat]
  · rintro rfl
    cases hns : lowerSequences.lookup c.toNat with
    | some ns => exact .several (hlookup.mp hns)
    | none =>
      dsimp only
      rcases shifted_cases lowerRuns c.toNat with ⟨run, hrun, hc, hshifted⟩ | ⟨hshifted, hfree⟩
      · rw [hshifted]
        exact .moved (hnone.mpr hns) hrun hc
      · rw [hshifted, Char.ofNat_toNat]
        exact .unmoved (hnone.mpr hns) hfree

/-! ### Capital sigma -/

theorem meetsLetter_iff {cs : List Char} : meetsLetter cs = true ↔ StartsWord cs := by
  unfold meetsLetter
  constructor
  · intro h
    obtain ⟨letter, hletter, hcased⟩ := (Option.any_eq_true _ _).mp h
    obtain ⟨rest, hrest⟩ := List.head?_eq_some_iff.mp hletter
    refine ⟨cs.takeWhile isIgnorable, letter, rest, ?_, ?_, ?_, hcased⟩
    · rw [← hrest, List.takeWhile_append_dropWhile]
    · exact List.all_eq_true.mp List.all_takeWhile
    · have hstop := List.head?_dropWhile_not isIgnorable cs
      rwa [hletter] at hstop
  · rintro ⟨gap, letter, rest, rfl, hgap, hletter, hcased⟩
    rw [List.dropWhile_append_of_pos hgap, List.dropWhile_cons_of_neg (by simp [hletter])]
    exact hcased

theorem smallAt_iff {before after : List Char} {c : Char} {ds : List Char} :
    SmallAt before.reverse after c ds ↔
      (if c = 'Σ' then [smallSigma before after] else mapped lowerSequences lowerRuns c) = ds := by
  have hends : EndsWord before.reverse after ↔
      (meetsLetter before && !meetsLetter after) = true := by
    rw [EndsWord, List.reverse_reverse, ← meetsLetter_iff, ← meetsLetter_iff]
    simp
  constructor
  · intro h
    cases h with
    | final hend => rw [if_pos rfl, smallSigma, if_pos (hends.mp hend)]
    | inside hinside => rw [if_pos rfl, smallSigma, if_neg (fun hend => hinside (hends.mpr hend))]
    | other hc hsmall => rw [if_neg hc, small_iff.mp hsmall]
  · rintro rfl
    by_cases hc : c = 'Σ'
    · rw [if_pos hc, smallSigma, hc]
      split_ifs with hend
      · exact .final (hends.mpr hend)
      · exact .inside (fun h => hend (hends.mp h))
    · rw [if_neg hc]
      exact .other hc (small_iff.mpr rfl)

/-! ### Words -/

/-- A word is lowered character by character, with what was passed in view. -/
theorem lowerChars_eq_iff {before cs small : List Char} :
    lowerChars before cs = small ↔
      ∃ parts : List (List Char), parts.length = cs.length ∧ small = parts.flatten ∧
        ∀ (i : Nat) (c : Char) (ds : List Char), cs[i]? = some c → parts[i]? = some ds →
          SmallAt (before.reverse ++ cs.take i) (cs.drop (i + 1)) c ds := by
  induction cs generalizing before small with
  | nil =>
    constructor
    · rintro rfl
      exact ⟨[], rfl, rfl, nofun⟩
    · rintro ⟨parts, hlen, rfl, _⟩
      rw [List.length_eq_zero_iff.mp hlen]
      rfl
  | cons c cs ih =>
    -- What was passed is kept in reverse, so a step forward moves one character over.
    have hstep (i : Nat) : before.reverse ++ (c :: cs).take (i + 1) =
        (c :: before).reverse ++ cs.take i := by simp
    rw [lowerChars]
    constructor
    · rintro rfl
      obtain ⟨parts, hlen, hrest, hparts⟩ := ih.mp (rfl : lowerChars (c :: before) cs = _)
      refine ⟨_ :: parts, congrArg (· + 1) hlen, by rw [hrest]; rfl, ?_⟩
      intro i d ds hd hds
      cases i with
      | zero =>
        cases hd
        cases hds
        rw [List.take_zero, List.append_nil]
        exact smallAt_iff.mpr rfl
      | succ i =>
        rw [hstep]
        exact hparts i d ds hd hds
    · rintro ⟨parts, hlen, rfl, hparts⟩
      cases parts with
      | nil => cases hlen
      | cons part parts =>
        have hhead := hparts 0 c part rfl rfl
        rw [List.take_zero, List.append_nil] at hhead
        rw [← smallAt_iff.mp hhead, List.flatten_cons]
        congr 1
        refine ih.mpr ⟨parts, Nat.succ.inj hlen, rfl, ?_⟩
        intro i d ds hd hds
        rw [← hstep]
        exact hparts (i + 1) d ds hd hds

theorem lower_eq_iff {s t : String} : lower s = t ↔ IsLower s.toList t.toList := by
  rw [lower, ← String.toList_inj, String.toList_ofList, lowerChars_eq_iff]
  rfl

end PropAtlas.LetterCase
