import PropAtlas.Proofs.Value.Spelling

/-! Template texts piece by piece. A text is searched for escapes from the left, and the search goes on
after each of them. What an escape stands for depends on the escape alone, so a text that is cut between
two pieces is cooked part by part. -/

namespace PropAtlas.Value.Escape

open PropAtlas (CodePoint Text)

/-! ### The pattern of an escape -/

/-- The letter `u` and one or more digits in braces. -/
def IsBraced (e : Text) : Prop :=
  ∃ ds, e = CodePoint.ofChar 'u' :: CodePoint.ofChar '{' :: ds ++ [CodePoint.ofChar '}'] ∧
    ds ≠ [] ∧ IsDigits ds

/-- A letter and a number of digits. -/
def IsFixed (letter : Char) (count : Nat) (e : Text) : Prop :=
  ∃ ds, e = CodePoint.ofChar letter :: ds ∧ ds.length = count ∧ IsDigits ds

def IsLineEnd (e : Text) : Prop := e = [CodePoint.ofChar '\r', CodePoint.ofChar '\n']

/-- A code point of any kind. -/
def IsSingle (e : Text) : Prop := ∃ p, e = [p]

/-- What may follow a backslash, in the order in which it is tried. -/
def alternatives : List (Text → Prop) :=
  [IsBraced, IsFixed 'u' 4, IsFixed 'x' 2, IsLineEnd, IsSingle]

/-- Ordered choice: `e` starts the text `t` and fits an alternative, and nothing that starts `t` fits an
alternative before that one. -/
inductive Chosen (t : Text) : List (Text → Prop) → Text → Prop where
  | here {A : Text → Prop} {As : List (Text → Prop)} {e : Text} (h : A e) (hstart : e <+: t) :
      Chosen t (A :: As) e
  | later {A : Text → Prop} {As : List (Text → Prop)} {e : Text} (h : ∀ d, A d → ¬ d <+: t)
      (hrest : Chosen t As e) : Chosen t (A :: As) e

variable {As : List (Text → Prop)} {a b e t rest : Text}

theorem Chosen.isPrefix (h : Chosen t As e) : e <+: t := by
  induction h with
  | here _ hstart => exact hstart
  | later _ _ ih => exact ih

/-- A choice stays the same if the text ends earlier, but not inside of what was chosen: an alternative
that does not fit the longer text does not fit the shorter one. -/
theorem Chosen.shorten (h : Chosen (e ++ a ++ b) As e) : Chosen (e ++ a) As e := by
  generalize ht : e ++ a ++ b = t at h
  induction h with
  | here h _ => exact .here h (List.prefix_append _ _)
  | later h _ ih =>
    refine .later ?_ (ih ht)
    intro d hd hstart
    apply h d hd
    rw [← ht]
    exact hstart.trans (List.prefix_append _ _)

theorem exists_chosen (h : ∃ A ∈ As, ∃ e, A e ∧ e <+: t) : ∃ e, Chosen t As e := by
  induction As with
  | nil =>
    obtain ⟨A, hA, _⟩ := h
    cases hA
  | cons A As ih =>
    by_cases hfirst : ∃ e, A e ∧ e <+: t
    · obtain ⟨e, he, hstart⟩ := hfirst
      exact ⟨e, .here he hstart⟩
    · obtain ⟨B, hB, e, he, hstart⟩ := h
      rcases List.mem_cons.mp hB with rfl | hB
      · exact absurd ⟨e, he, hstart⟩ hfirst
      · obtain ⟨e, he⟩ := ih ⟨B, hB, e, he, hstart⟩
        exact ⟨e, .later (fun d hd hstart => hfirst ⟨d, hd, hstart⟩) he⟩

/-- Something can be chosen after a backslash unless it is the end of the text. -/
theorem exists_alternative (h : t ≠ []) : ∃ e, Chosen t alternatives e := by
  obtain ⟨p, rest, rfl⟩ := List.exists_cons_of_ne_nil h
  apply exists_chosen
  refine ⟨IsSingle, by simp [alternatives], [p], ⟨p, rfl⟩, ?_⟩
  exact ⟨rest, rfl⟩

/-! ### Reading an escape -/

theorem fixed?_eq_none {letter : Char} {count : Nat}
    (h : ∀ d, IsFixed letter count d → ¬ d <+: CodePoint.ofChar letter :: t) :
    fixed? count t = none := by
  rw [Option.eq_none_iff_forall_ne_some]
  rintro ⟨ds, left⟩ hsome
  obtain ⟨rfl, hlength, hdigits⟩ := fixed?_eq_some_iff.mp hsome
  exact h _ ⟨ds, rfl, hlength, hdigits⟩ (List.prefix_append _ left)

theorem braced?_eq_none (h : ∀ d, IsBraced d → ¬ d <+: CodePoint.ofChar 'u' :: t) :
    braced? t = none := by
  rw [Option.eq_none_iff_forall_ne_some]
  rintro ⟨ds, left⟩ hsome
  obtain ⟨rfl, hne, hdigits⟩ := braced?_eq_some_iff.mp hsome
  refine h _ ⟨ds, rfl, hne, hdigits⟩ ⟨left, ?_⟩
  simp

/-- What an escape stands for. -/
def meaning (e : Text) : Text := (read e).1

theorem read_lineEnd (rest : Text) :
    read (CodePoint.ofChar '\r' :: CodePoint.ofChar '\n' :: rest) = ([], rest) := by
  rfl

/-- A code point by itself, where no longer alternative fits. -/
theorem read_single {p : CodePoint} (hbraced : ∀ d, IsBraced d → ¬ d <+: p :: rest)
    (hfour : ∀ d, IsFixed 'u' 4 d → ¬ d <+: p :: rest)
    (htwo : ∀ d, IsFixed 'x' 2 d → ¬ d <+: p :: rest)
    (hline : ∀ d, IsLineEnd d → ¬ d <+: p :: rest) :
    read (p :: rest) = (meaning [p], rest) := by
  by_cases hu : p = CodePoint.ofChar 'u'
  · subst hu
    rw [read.eq_def]
    dsimp only
    rw [if_pos rfl, braced?_eq_none hbraced, fixed?_eq_none hfour]
    rfl
  by_cases hx : p = CodePoint.ofChar 'x'
  · subst hx
    rw [read.eq_def]
    dsimp only
    rw [if_neg hu, if_pos rfl, fixed?_eq_none htwo]
    rfl
  by_cases hr : p = CodePoint.ofChar '\r'
  · subst hr
    cases rest with
    | nil => rfl
    | cons q left =>
      have hq : q ≠ CodePoint.ofChar '\n' := by
        rintro rfl
        exact hline _ rfl ⟨left, rfl⟩
      have hreturn : CodePoint.ofChar '\r' = 0x0D := rfl
      rw [read.eq_def]
      dsimp only
      rw [if_neg hu, if_neg hx, if_pos hreturn]
      exact if_neg hq
  · -- What comes after any other code point is not looked at.
    have hread (t : Text) : read (p :: t) =
        if p = 0x0A ∨ p = 0x2028 ∨ p = 0x2029 then ([], t) else ([simple p], t) := by
      rw [read.eq_def]
      dsimp only
      rw [if_neg hu, if_neg hx]
      exact if_neg hr
    rw [meaning, hread, hread]
    split <;> rfl

theorem length_named_le {ds spelled : Text} (h : spelled ≠ []) :
    (named ds spelled).length ≤ spelled.length := by
  unfold named
  split
  · exact List.length_pos_iff.mpr h
  · exact Nat.le_refl _

theorem length_meaning_single (p : CodePoint) : (meaning [p]).length ≤ 1 := by
  have hfixed (count : Nat) (h : count ≠ 0) : fixed? count [] = none := by
    simp [fixed?, h.symm]
  rw [meaning, read.eq_def]
  simp only [braced?, hfixed 4 (by decide), hfixed 2 (by decide)]
  split_ifs <;> simp

/-- An escape is read whole, whatever comes after it, and it stands for no more code points than it is
written with. -/
theorem read_of_chosen (h : Chosen (e ++ rest) alternatives e) :
    read (e ++ rest) = (meaning e, rest) ∧ (meaning e).length ≤ e.length := by
  have hof (m : Text) (hm : m.length ≤ e.length)
      (hread : ∀ t, t = [] ∨ t = rest → read (e ++ t) = (m, t)) :
      read (e ++ rest) = (meaning e, rest) ∧ (meaning e).length ≤ e.length := by
    have hmeaning : meaning e = m := by
      have hempty := hread [] (.inl rfl)
      rw [List.append_nil] at hempty
      rw [meaning, hempty]
    rw [hmeaning]
    exact ⟨hread rest (.inr rfl), hm⟩
  -- One case for each alternative, with what is known about those before it.
  rw [alternatives] at h
  cases h with
  | here h _ =>
    obtain ⟨ds, rfl, hne, hdigits⟩ := h
    exact hof _ (length_named_le (by simp)) (fun t _ => read_braced hne hdigits t)
  | later hbraced h =>
  cases h with
  | here h _ =>
    obtain ⟨ds, rfl, hlength, hdigits⟩ := h
    refine hof _ (length_named_le (by simp)) (fun t ht =>
      read_fourDigits hlength hdigits (braced?_eq_none ?_))
    intro d hd hstart
    apply hbraced d hd
    rcases ht with rfl | rfl
    · rw [List.append_nil] at hstart
      exact hstart.trans (List.prefix_append _ _)
    · exact hstart
  | later hfour h =>
  cases h with
  | here h _ =>
    obtain ⟨ds, rfl, hlength, hdigits⟩ := h
    exact hof _ (length_named_le (by simp)) (fun t _ => read_twoDigits hlength hdigits t)
  | later htwo h =>
  cases h with
  | here h _ =>
    rw [IsLineEnd] at h
    subst h
    exact ⟨read_lineEnd rest, by decide⟩
  | later hline h =>
  cases h with
  | here h _ =>
    obtain ⟨p, rfl⟩ := h
    exact ⟨read_single hbraced hfour htwo hline, length_meaning_single p⟩
  | later _ h => cases h

/-! ### The pieces of a text -/

/-- A code point that stands for itself, or an escape, given by what follows its backslash. -/
inductive Piece where
  | plain (p : CodePoint)
  | escape (e : Text)

/-- A piece as it is written. -/
def Piece.text : Piece → Text
  | .plain p => [p]
  | .escape e => backslash :: e

def Piece.meaning : Piece → Text
  | .plain p => [p]
  | .escape e => Escape.meaning e

/-- The text of pieces in a row. -/
def textOf (ps : List Piece) : Text := ps.flatMap Piece.text

/-- The pieces that a search from the left finds in a text. A backslash stands for itself only at the
end, where nothing follows that it could escape. -/
inductive Cut : List Piece → Text → Prop where
  | nil : Cut [] []
  | plain {p : CodePoint} {ps : List Piece} {t : Text} (h : p = backslash → t = []) (hcut : Cut ps t) :
      Cut (.plain p :: ps) (p :: t)
  | escape {e : Text} {ps : List Piece} {t : Text} (h : Chosen (e ++ t) alternatives e)
      (hcut : Cut ps t) : Cut (.escape e :: ps) (backslash :: (e ++ t))

/-- No escape among the pieces begins before the offset and ends after it. -/
def Uncrossed (ps : List Piece) (offset : Nat) : Prop :=
  ∀ before e after, ps = before ++ .escape e :: after →
    offset ≤ (textOf before).length ∨
      (textOf before).length + (Piece.escape e).text.length ≤ offset

variable {ps : List Piece}

/-- Every text is cut in some way. -/
theorem exists_cut (t : Text) : ∃ ps, Cut ps t := by
  -- By length: the search goes on after an escape, not after its first code point.
  induction hn : t.length using Nat.strong_induction_on generalizing t with
  | _ n ih =>
  cases t with
  | nil => exact ⟨[], .nil⟩
  | cons p t =>
    have hlength : t.length < n := by
      rw [← hn, List.length_cons]
      omega
    by_cases hplain : p = backslash → t = []
    · obtain ⟨ps, hps⟩ := ih t.length hlength t rfl
      exact ⟨_, .plain hplain hps⟩
    · obtain ⟨hp, hne⟩ := Classical.not_imp.mp hplain
      obtain ⟨e, he⟩ := exists_alternative hne
      obtain ⟨rest, rfl⟩ := he.isPrefix
      have hrest : rest.length < n := by
        rw [List.length_append] at hlength
        omega
      obtain ⟨ps, hps⟩ := ih rest.length hrest rest rfl
      rw [hp]
      exact ⟨_, .escape he hps⟩

theorem cook_lone : cook [backslash] = [backslash] := by
  rw [cook_backslash]
  exact congrArg ([backslash] ++ ·) cook_nil

/-- Cooking replaces each piece by what it stands for. -/
theorem cook_of_cut (h : Cut ps t) : cook t = ps.flatMap Piece.meaning := by
  induction h with
  | nil => exact cook_nil
  | @plain p ps t hp _ ih =>
    by_cases hback : p = backslash
    · have hempty : t = [] := hp hback
      rw [hempty, cook_nil] at ih
      rw [hempty, hback, cook_lone, List.flatMap_cons, ← ih]
      rfl
    · rw [cook_plain hback, ih]
      rfl
  | escape he _ ih =>
    rw [cook_backslash, (read_of_chosen he).1, ih]
    rfl

theorem length_cook_of_cut (h : Cut ps t) : (cook t).length ≤ t.length := by
  rw [cook_of_cut h]
  induction h with
  | nil => exact Nat.le_refl _
  | @plain p ps t _ _ ih =>
    have hone : (Piece.plain p).meaning.length = 1 := rfl
    rw [List.flatMap_cons, List.length_append, List.length_cons]
    omega
  | @escape e ps t he _ ih =>
    have hmeaning : (Piece.escape e).meaning.length ≤ e.length := (read_of_chosen he).2
    rw [List.flatMap_cons, List.length_append, List.length_cons, List.length_append]
    omega

theorem uncrossed_zero (ps : List Piece) : Uncrossed ps 0 := fun _ _ _ _ => .inl (Nat.zero_le _)

/-- Behind the first piece the offset is counted from the end of that piece. -/
theorem uncrossed_cons {q : Piece} {offset : Nat} :
    Uncrossed (q :: ps) (q.text.length + offset) ↔ Uncrossed ps offset := by
  have htext (before : List Piece) :
      (textOf (q :: before)).length = q.text.length + (textOf before).length := by
    rw [textOf, List.flatMap_cons, List.length_append, textOf]
  constructor
  · rintro h before e after rfl
    have hq := h (q :: before) e after rfl
    rw [htext] at hq
    omega
  · intro h before e after hps
    cases before with
    | nil =>
      obtain ⟨rfl, -⟩ := List.cons.inj hps
      exact .inr (by rw [textOf, List.flatMap_nil, List.length_nil]; omega)
    | cons q' before =>
      obtain ⟨rfl, htail⟩ := List.cons.inj hps
      have hps' := h before e after htail
      rw [htext]
      omega

/-- A cut of a text is a cut of its first part and then one of the second, if no escape crosses the
border. -/
theorem Cut.split (h : Cut ps (a ++ b)) (hborder : Uncrossed ps a.length) :
    ∃ qs rs, ps = qs ++ rs ∧ Cut qs a ∧ Cut rs b := by
  generalize ht : a ++ b = t at h
  induction h generalizing a with
  | nil =>
    obtain ⟨rfl, rfl⟩ := List.append_eq_nil_iff.mp ht
    exact ⟨[], [], rfl, .nil, .nil⟩
  | @plain p ps t hp hcut ih =>
    cases a with
    | nil =>
      rw [List.nil_append] at ht
      exact ⟨[], _, rfl, .nil, ht ▸ .plain hp hcut⟩
    | cons c a =>
      rw [List.cons_append] at ht
      obtain ⟨rfl, rfl⟩ := List.cons.inj ht
      have htail : Uncrossed ps a.length := by
        apply (uncrossed_cons (q := .plain c)).mp
        rwa [List.length_cons, Nat.add_comm] at hborder
      obtain ⟨qs, rs, rfl, hqs, hrs⟩ := ih htail rfl
      refine ⟨.plain c :: qs, rs, rfl, .plain ?_ hqs, hrs⟩
      intro hc
      exact (List.append_eq_nil_iff.mp (hp hc)).1
  | @escape e ps t he hcut ih =>
    cases a with
    | nil =>
      rw [List.nil_append] at ht
      exact ⟨[], _, rfl, .nil, ht ▸ .escape he hcut⟩
    | cons c a =>
      rw [List.cons_append] at ht
      obtain ⟨rfl, hrest⟩ := List.cons.inj ht
      -- The border is not in front of this escape, so it is behind it.
      have hlength : e.length ≤ a.length := by
        have hfirst := hborder [] e ps rfl
        rw [textOf, List.flatMap_nil, List.length_nil, Piece.text, List.length_cons,
          List.length_cons] at hfirst
        omega
      obtain ⟨a, rfl⟩ : e <+: a := by
        refine List.prefix_of_prefix_length_le ?_ (List.prefix_append a b) hlength
        rw [hrest]
        exact List.prefix_append _ _
      rw [List.append_assoc] at hrest
      obtain rfl := List.append_cancel_left hrest
      have htail : Uncrossed ps a.length := by
        apply (uncrossed_cons (q := .escape e)).mp
        rwa [← List.cons_append, List.length_append] at hborder
      obtain ⟨qs, rs, rfl, hqs, hrs⟩ := ih htail rfl
      rw [← List.append_assoc] at he
      exact ⟨.escape e :: qs, rs, rfl, .escape he.shorten hqs, hrs⟩

/-- The search after a backslash goes on where reading leaves off, so there is no other cut. -/
theorem Cut.of_backslash (h : Cut ps (backslash :: t)) (hne : t ≠ []) :
    ∃ e qs, ps = .escape e :: qs ∧ e.length + (read t).2.length = t.length ∧ Cut qs (read t).2 := by
  generalize hu : backslash :: t = u at h
  cases h with
  | nil => cases hu
  | plain hp hcut =>
    obtain ⟨hback, rfl⟩ := List.cons.inj hu
    exact absurd (hp hback.symm) hne
  | @escape e qs rest he hcut =>
    obtain ⟨-, rfl⟩ := List.cons.inj hu
    rw [(read_of_chosen he).1, List.length_append]
    exact ⟨e, qs, rfl, rfl, hcut⟩

/-! ### Cooking part by part -/

theorem cook_of_not_mem (h : backslash ∉ t) : cook t = t := by
  induction t with
  | nil => exact cook_nil
  | cons p t ih =>
    rw [List.mem_cons, not_or] at h
    rw [cook_plain (Ne.symm h.1), ih h.2]

/-- A text is cooked part by part if no escape that is found in it crosses the border between the parts. A
text without a backslash stays as it is, and no text gets longer. -/
theorem cook_local :
    (∀ a b : Text, (∀ ps, Cut ps (a ++ b) → Uncrossed ps a.length) →
      cook (a ++ b) = cook a ++ cook b) ∧
    (∀ t : Text, backslash ∉ t → cook t = t) ∧
    ∀ t : Text, (cook t).length ≤ t.length := by
  refine ⟨?_, fun t ht => cook_of_not_mem ht, ?_⟩
  · intro a b h
    obtain ⟨ps, hps⟩ := exists_cut (a ++ b)
    obtain ⟨qs, rs, rfl, hqs, hrs⟩ := hps.split (h ps hps)
    rw [cook_of_cut hps, cook_of_cut hqs, cook_of_cut hrs, List.flatMap_append]
  · intro t
    obtain ⟨ps, hps⟩ := exists_cut t
    exact length_cook_of_cut hps

/-- A number that is out of range and a line that ends at the border, in front of a text that would be read
otherwise if the border were not there. -/
theorem cook_local_line_end :
    let a := Text.ofString "\\u\x7b110000\x7d\\\r"
    let plain := Text.ofString "u\x7b41\x7d"
    let b := plain ++ [backslash]
    (∀ ps, Cut ps (a ++ b) → Uncrossed ps a.length) ∧ cook (a ++ b) = cook a ++ cook b ∧
      backslash ∉ plain ∧ cook plain = plain ∧ (cook a).length ≤ a.length := by
  intro a plain b
  have hborder : ∀ ps, Cut ps (a ++ b) → Uncrossed ps a.length := by
    intro ps hps
    have hfirst : (read (a ++ b).tail).2 = backslash :: CodePoint.ofChar '\r' :: b := by
      decide
    have hsecond : (read (CodePoint.ofChar '\r' :: b)).2 = b := by decide
    obtain ⟨e, qs, rfl, he, hqs⟩ := Cut.of_backslash (t := (a ++ b).tail) hps (by decide)
    rw [hfirst, List.length_tail, List.length_append] at he
    rw [hfirst] at hqs
    obtain ⟨e', rs, rfl, he', -⟩ := hqs.of_backslash (by decide)
    rw [hsecond] at he'
    have hlength : a.length =
        (Piece.escape e).text.length + ((Piece.escape e').text.length + 0) := by
      have ha : a.length = 12 := by decide
      simp only [Piece.text, List.length_cons] at he he' ⊢
      omega
    rw [hlength]
    exact uncrossed_cons.mpr (uncrossed_cons.mpr (uncrossed_zero rs))
  have hplain : backslash ∉ plain := by decide
  exact ⟨hborder, cook_local.1 a b hborder, hplain, cook_local.2.1 plain hplain, cook_local.2.2 a⟩

end PropAtlas.Value.Escape
