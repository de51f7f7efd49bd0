import PropAtlas.Proofs.Value.Needs

/-! The loops of the renderer, over the links of a chain and over the pieces of a template. If the parts of an
expression are shown as the recursion says, but in fewer cases, the loops show the whole so. -/

namespace PropAtlas.Value

open PropAtlas (Source Text)
open PropAtlas.Syntax (Node Kind Field)

variable {s : Source} {n : Node}

/-! ### Chains -/

theorem unroll_of_base (h : linkField n.kind = none) (links : List Node) :
    unroll n links = (some n, links) := by
  rw [unroll, h]

theorem unroll_of_missing {f : Field} (hf : linkField n.kind = some f) (h : n.child? f = none)
    (links : List Node) : unroll n links = (none, n :: links) := by
  rw [unroll, hf]
  dsimp only
  split
  · rfl
  · rename_i hc
    cases h.symm.trans hc

theorem unroll_of_link {f : Field} {c : Node} (hf : linkField n.kind = some f)
    (h : n.child? f = some c) (links : List Node) : unroll n links = unroll c (n :: links) := by
  rw [unroll, hf]
  dsimp only
  split
  · rename_i hc
    cases h.symm.trans hc
  · rename_i hc
    cases h.symm.trans hc
    rfl

/-- The links of a chain are put in front of those that are there already. -/
theorem unroll_append (n : Node) (links more : List Node) :
    unroll n (links ++ more) = ((unroll n links).1, (unroll n links).2 ++ more) := by
  induction n using Node.induction generalizing links with
  | h n ih =>
    cases hf : linkField n.kind with
    | none => rw [unroll_of_base hf, unroll_of_base hf]
    | some f =>
      cases hc : n.child? f with
      | none =>
        rw [unroll_of_missing hf hc, unroll_of_missing hf hc]
        rfl
      | some c =>
        rw [unroll_of_link hf hc, unroll_of_link hf hc, ← List.cons_append]
        exact ih c (List.mem_of_find?_eq_some hc) (n :: links)

theorem chainText_eq (s : Source) (show? : Node → Option Text) (n : Node) :
    chainText s show? n = ((unroll n []).1.bind show?).bind (fun start =>
      ((unroll n []).2.mapM (linkText s show?)).map (fun rest => start ++ rest.flatten)) := by
  unfold chainText
  obtain ⟨base, links⟩ := unroll n []
  dsimp only
  cases base.bind show? with
  | none => rfl
  | some start => cases links.mapM (linkText s show?) <;> rfl

/-- Without links, there is nothing to loop over. -/
theorem chainText_base (h : linkField n.kind = none) (show? : Node → Option Text) :
    chainText s show? n = show? n := by
  rw [chainText_eq, unroll_of_base h]
  cases hn : show? n with
  | none => simp [hn]
  | some t => simp [hn]

/-- The loop over a chain, one link at a time: a link adds its own text to that of the chain it is
attached to. -/
theorem chainText_link {f : Field} (hf : linkField n.kind = some f) (show? : Node → Option Text) :
    chainText s show? n = ((n.child? f).bind (chainText s show?)).bind
      (fun t => (linkText s show? n).map (t ++ ·)) := by
  cases hc : n.child? f with
  | none =>
    rw [chainText_eq, unroll_of_missing hf hc]
    rfl
  | some c =>
    -- The last link of the chain is the first one that the loop meets.
    have hunroll : unroll n [] = ((unroll c []).1, (unroll c []).2 ++ [n]) := by
      rw [unroll_of_link hf hc]
      exact unroll_append c [] [n]
    rw [chainText_eq, hunroll, Option.bind_some, chainText_eq s show? c]
    cases (unroll c []).1.bind show? with
    | none => rfl
    | some start =>
      rw [Option.bind_some, Option.bind_some, List.mapM_append]
      cases (unroll c []).2.mapM (linkText s show?) with
      | none => rfl
      | some rest =>
        cases hn : linkText s show? n with
        | none => simp [hn]
        | some t => simp [hn]

/-! ### Two texts, one of them in fewer cases -/

/-- Whether `x` is `y` where `p` holds and nothing elsewhere. -/
def Guarded (p : Prop) (x y : Option Text) : Prop := ∀ t, x = some t ↔ p ∧ y = some t

namespace Guarded

variable {p q : Prop} {x y : Option Text}

theorem congr (h : Guarded p x y) (hpq : p ↔ q) : Guarded q x y := by
  intro t
  rw [h t, hpq]

theorem of_holds (hp : p) : Guarded p x x := fun _ => ⟨fun h => ⟨hp, h⟩, fun h => h.2⟩

theorem eq (h : Guarded p x y) (hp : p) : x = y := by
  apply Option.ext
  intro t
  rw [h t, and_iff_right hp]

theorem eq_none (h : Guarded p x y) (hp : ¬ p) : x = none := by
  apply Option.eq_none_iff_forall_ne_some.mpr
  intro t ht
  exact hp ((h t).mp ht).1

theorem bind {f g : Text → Option Text} (h : Guarded p x y) (hfg : ∀ t, Guarded q (f t) (g t)) :
    Guarded (p ∧ q) (x.bind f) (y.bind g) := by
  intro u
  simp only [Option.bind_eq_some_iff]
  constructor
  · rintro ⟨t, hx, hf⟩
    obtain ⟨hp, hy⟩ := (h t).mp hx
    obtain ⟨hq, hg⟩ := (hfg t u).mp hf
    exact ⟨⟨hp, hq⟩, t, hy, hg⟩
  · rintro ⟨⟨hp, hq⟩, t, hy, hg⟩
    exact ⟨t, (h t).mpr ⟨hp, hy⟩, (hfg t u).mpr ⟨hq, hg⟩⟩

theorem map (h : Guarded p x y) (f : Text → Text) : Guarded p (x.map f) (y.map f) := by
  intro u
  simp only [Option.map_eq_some_iff]
  constructor
  · rintro ⟨t, hx, rfl⟩
    obtain ⟨hp, hy⟩ := (h t).mp hx
    exact ⟨hp, t, hy, rfl⟩
  · rintro ⟨hp, t, hy, rfl⟩
    exact ⟨t, (h t).mpr ⟨hp, hy⟩, rfl⟩

/-- A part that may be missing. -/
theorem part {P : Node → Prop} {F G : Node → Option Text} {c : Option Node}
    (h : ∀ m ∈ c.toList, Guarded (P m) (F m) (G m)) :
    Guarded (∀ m ∈ c.toList, P m) (c.bind F) (c.bind G) := by
  cases c with
  | none => exact of_holds (by simp)
  | some m => exact (h m (by simp)).congr (by simp)

end Guarded

section

variable {P : Node → Prop} {F : Node → Option Text}

theorem linkText_guarded (h : ∀ m ∈ indices n, Guarded (P m) (F m) (textOf s m)) :
    Guarded (∀ m ∈ indices n, P m) (linkText s F n) (linkText s (textOf s) n) := by
  unfold linkText
  split
  case h_1 hk => exact Guarded.of_holds (by simp [indices, hk])
  case h_2 hk =>
    have hindices : indices n = (n.child? .index).toList := by simp [indices, hk]
    rw [hindices] at h ⊢
    exact Guarded.part (fun m hm => (h m hm).map _)
  case h_3 _ hsubscript =>
    have hindices : indices n = [] := if_neg hsubscript
    rw [hindices]
    exact Guarded.of_holds (by simp)

/-- The first node stands for the operand unless it is a comment. -/
theorem head_guarded (hcomment : ∀ c, c.kind = .comment → F c = none)
    (h : ∀ m ∈ (operand n).toList, Guarded (P m) (F m) (textOf s m)) :
    Guarded (startsWithComment n = false ∧ ∀ m ∈ (operand n).toList, P m)
      (n.children.head?.bind F) ((operand n).bind (textOf s)) := by
  unfold operand at h ⊢
  unfold startsWithComment
  generalize n.children = cs at h ⊢
  cases cs with
  | nil => exact Guarded.of_holds (by simp)
  | cons c cs =>
    by_cases hc : c.kind = .comment
    · intro t
      simp [hc, hcomment c hc]
    · have hfind : (c :: cs).find? (fun c => c.kind != .comment) = some c := by simp [hc]
      rw [hfind] at h ⊢
      exact (Guarded.part h).congr (by simp [hc])

/-- The loop over a template. -/
theorem templateText_guarded (hcomment : ∀ c, c.kind = .comment → F c = none) (stop start : Nat)
    (cs : List Node) (h : ∀ m ∈ holes cs, Guarded (P m) (F m) (textOf s m)) :
    Guarded (cs.any (fun c => c.kind == .substitution && startsWithComment c) = false ∧
        ∀ m ∈ holes cs, P m)
      (templateText s F start stop cs) (foldedText s stop start cs) := by
  induction cs generalizing start with
  | nil =>
    rw [templateText, foldedText]
    exact Guarded.of_holds (by simp [holes])
  | cons c cs ih =>
    by_cases hc : c.kind = .substitution
    · rw [holes_substitution hc] at h ⊢
      have hfirst := head_guarded hcomment (fun m hm => h m (List.mem_append_left _ hm))
      have hrest := ih c.span.stop (fun m hm => h m (List.mem_append_right _ hm))
      rw [templateText_substitution hc, foldedText_substitution hc]
      refine (hfirst.bind (fun shown => hrest.map _)).congr ?_
      simp only [List.any_cons, hc, List.forall_mem_append, Bool.or_eq_false_iff,
        beq_self_eq_true, Bool.true_and]
      tauto
    · rw [holes_other hc] at h ⊢
      rw [templateText, if_neg hc, foldedText_other hc]
      exact (ih start h).congr (by simp [hc])

end

end PropAtlas.Value
