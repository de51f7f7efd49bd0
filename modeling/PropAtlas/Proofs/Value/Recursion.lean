import PropAtlas.Syntax.Grammar
import PropAtlas.Proofs.Value.Loops

/-!
Values by recursion on expressions. The text of an expression is made of the texts of its parts; the
renderer makes the same text with a loop over the links of a chain and a count of how deep it is.

Main statement: the two agree on every expression that nests less deeply than the renderer follows, if no
comment stands in front of what a wrapper or a substitution is around.
-/

namespace PropAtlas.Value

open PropAtlas (Source Text)
open PropAtlas.Syntax (Node Kind Field)

variable {s : Source} {n : Node}

/-! ### Texts under the nesting limit -/

/-- Whether no comment is in the way anywhere in what an expression depends on. -/
def Uncommented (n : Node) : Prop := ∀ m, DependsOn n m → isCommented m = false

theorem isBeside_child {m : Node} {f : Field} (hf : linkField n.kind = some f)
    (hm : n.child? f = some m) : isBeside n m = (linkField m.kind).isSome := by
  have hfield : m.field = some f := by simpa using List.find?_some hm
  simp [isBeside, hf, hfield]

theorem isBeside_index {m : Node} (hm : m ∈ indices n) : isBeside n m = false := by
  unfold indices at hm
  split at hm
  case isTrue hk =>
    have hfield : m.field = some .index := by simpa using List.find?_some (Option.mem_toList.mp hm)
    simp [isBeside, hk, hfield, linkField]
  case isFalse => exact absurd hm List.not_mem_nil

theorem isBeside_of_base {m : Node} (h : linkField n.kind = none) : isBeside n m = false := by
  simp [isBeside, h]

theorem render_link {f : Field} (hf : linkField n.kind = some f) (d : Nat) :
    render s (d + 1) n = chainText s (render s d) n := by
  obtain ⟨kind, field, span, cs⟩ := n
  rcases linkField_cases hf with ⟨hk, _⟩ | ⟨hk, _⟩ | ⟨hk, _⟩
  · cases hk
    rfl
  · cases hk
    rfl
  · cases hk
    rfl

theorem render_unary (hk : n.kind = .unary) (d : Nat) :
    render s (d + 1) n = (n.child? .operator).bind (fun operator =>
      ((n.child? .argument).bind (render s d)).map (operatorText (nodeText s operator) ++ ·)) := by
  obtain ⟨kind, field, span, cs⟩ := n
  cases hk
  simp only [Option.map_eq_bind]
  rfl

theorem render_wrapper (hk : n.kind = .parenthesized ∨ n.kind = .wrapped) (d : Nat) :
    render s (d + 1) n = n.children.head?.bind (render s d) := by
  obtain ⟨kind, field, span, cs⟩ := n
  rcases hk with hk | hk
  · cases hk
    rfl
  · cases hk
    rfl

theorem render_template (hk : n.kind = .template) (d : Nat) :
    render s (d + 1) n =
      templateText s (render s d) (n.span.start + 1) n.span.stop n.children := by
  obtain ⟨kind, field, span, cs⟩ := n
  cases hk
  rfl

/-- The start of a chain nests in it, the rest of the chain does not. -/
theorem chainText_render (d : Nat) (n : Node) :
    chainText s (render s d) n = render s (if (linkField n.kind).isSome then d + 1 else d) n := by
  cases hf : linkField n.kind with
  | none => exact chainText_base hf _
  | some f => exact (render_link hf d).symm

theorem render_comment {c : Node} (hc : c.kind = .comment) (d : Nat) : render s d c = none := by
  obtain ⟨kind, field, span, cs⟩ := c
  cases hc
  cases d <;> rfl

theorem within_and_uncommented_succ {d : Nat} :
    Within (d + 1) n ∧ Uncommented n ↔ isCommented n = false ∧
      ∀ m ∈ needs n, Within (if isBeside n m then d + 1 else d) m ∧ Uncommented m := by
  rw [within_succ]
  unfold Uncommented
  rw [forall_dependsOn_iff]
  simp only [forall_and]
  tauto

/-- What the renderer shows is the recursive text, as long as the nesting stays under the limit and no
comment is in the way. -/
theorem render_guarded (s : Source) (d : Nat) (n : Node) :
    Guarded (Within d n ∧ Uncommented n) (render s d n) (textOf s n) := by
  -- By what the text is made of, not by depth: the chain before a link is at the depth of the link.
  induction n using needs_induction generalizing d with
  | h n ih =>
    cases d with
    | zero =>
      intro t
      simp [render, within_zero]
    | succ d =>
      refine Guarded.congr ?_ within_and_uncommented_succ.symm
      cases hf : linkField n.kind with
      | some f =>
        rw [render_link hf, chainText_link hf, textOf_link hf]
        rw [needs_link hf] at ih ⊢
        -- The chain before this link is shown at the same depth, an index one deeper.
        have hchain : Guarded (∀ m ∈ (n.child? f).toList,
              Within (if isBeside n m then d + 1 else d) m ∧ Uncommented m)
            ((n.child? f).bind (chainText s (render s d))) ((n.child? f).bind (textOf s)) := by
          apply Guarded.part
          intro m hm
          rw [chainText_render, isBeside_child hf (Option.mem_toList.mp hm)]
          exact ih m (List.mem_append_left _ hm) _
        have hlink : Guarded (∀ m ∈ indices n,
              Within (if isBeside n m then d + 1 else d) m ∧ Uncommented m)
            (linkText s (render s d) n) (linkText s (textOf s) n) := by
          apply linkText_guarded
          intro m hm
          rw [isBeside_index hm]
          exact ih m (List.mem_append_right _ hm) d
        refine (hchain.bind (fun t => hlink.map _)).congr ?_
        rw [List.forall_mem_append, isCommented_link hf]
        simp
      | none =>
        have hnested : ∀ m ∈ needs n, Guarded (Within (if isBeside n m then d + 1 else d) m ∧
            Uncommented m) (render s d m) (textOf s m) := by
          intro m hm
          rw [isBeside_of_base hf]
          exact ih m hm d
        have hcomment : ∀ c : Node, c.kind = .comment → render s d c = none :=
          fun c hc => render_comment hc d
        cases hk : n.kind with
        | unary =>
          have hneeds : needs n = (n.child? .argument).toList := by simp [needs, hk]
          rw [hneeds] at hnested ⊢
          rw [render_unary hk, textOf_unary hk]
          cases n.child? .operator with
          | none =>
            intro t
            simp
          | some operator =>
            exact ((Guarded.part hnested).map _).congr (by simp [isCommented, hk])
        | parenthesized | wrapped =>
          have hwrapper : n.kind = .parenthesized ∨ n.kind = .wrapped := by simp [hk]
          have hneeds : needs n = (operand n).toList := by simp [needs, hk]
          rw [hneeds] at hnested ⊢
          rw [render_wrapper hwrapper, textOf_wrapper hwrapper]
          exact (head_guarded hcomment hnested).congr (by simp [isCommented, hk])
        | template =>
          have hneeds : needs n = holes n.children := by simp [needs, hk]
          rw [hneeds] at hnested ⊢
          rw [render_template hk, textOf_template hk]
          refine (templateText_guarded hcomment _ _ _ hnested).congr ?_
          simp only [isCommented, hk]
        | member | subscript | call => simp [linkField, hk] at hf
        | _ =>
          -- Nothing is nested here, so that any depth but none is enough.
          have hrender : render s (d + 1) n = textOf s n := by
            obtain ⟨kind, field, span, cs⟩ := n
            cases hk
            rw [textOf.eq_def]
            rfl
          rw [hrender]
          exact Guarded.of_holds (by simp [isCommented, needs, hk])

/-- A tree of few nodes does not nest deeply. -/
theorem within_of_length {d : Nat} (h : n.preorder.length ≤ d) : Within d n := by
  induction n using needs_induction generalizing d with
  | h n ih =>
    cases d with
    | zero => simp [n.preorder_eq] at h
    | succ d =>
      apply Within.intro
      intro m hm
      have hlt := length_preorder_of_mem_needs hm
      apply ih m hm
      split_ifs
      · omega
      · omega

/-- The renderer, which loops over chains and counts how deep it is, agrees with the recursion wherever
it stays under its limit and no comment is in the way. Nothing is shown exactly where something that the
text depends on is incomplete or has a comment in the way; the recursion knows the first reason only. -/
theorem render_refines_recursion (s : Source) {d : Nat} {n : Node} (hd : Within d n) :
    (Uncommented n → render s d n = textOf s n) ∧
    (render s d n = none ↔
      ∃ m, DependsOn n m ∧ (isComplete m = false ∨ isCommented m = true)) ∧
    (textOf s n = none ↔ ∃ m, DependsOn n m ∧ isComplete m = false) := by
  have hguarded := render_guarded s d n
  have hnone : textOf s n = none ↔ ∃ m, DependsOn n m ∧ isComplete m = false := by
    rw [← Option.not_isSome_iff_eq_none, isSome_textOf_iff]
    simp
  refine ⟨fun hn => hguarded.eq ⟨hd, hn⟩, ?_, hnone⟩
  by_cases hn : Uncommented n
  · rw [hguarded.eq ⟨hd, hn⟩, hnone]
    refine exists_congr (fun m => and_congr_right (fun hm => ?_))
    rw [hn m hm]
    simp
  · have hcommented : ∃ m, DependsOn n m ∧ isCommented m = true := by
      simpa [Uncommented] using hn
    obtain ⟨m, hm, hc⟩ := hcommented
    rw [hguarded.eq_none (fun h => hn h.2)]
    exact iff_of_true rfl ⟨m, hm, Or.inr hc⟩

/-- A chain that starts from a wrapped name, with an operator in an index. -/
def chainSource : Source := Source.ofList "<A b={(x as T).y[!z]()}/>".toList

theorem render_refines_recursion_chain :
    ∃ root n, Syntax.parse .tsx chainSource = some root ∧ n ∈ root.preorder ∧
      Within nestingLimit n ∧ Uncommented n ∧
      render chainSource nestingLimit n = some (Text.ofString "x.y[!z]()") := by
  have hparse : (Syntax.parse .tsx chainSource).any (fun root => root.preorder.any (fun n =>
      decide (n.preorder.length ≤ nestingLimit) && n.preorder.all (fun m => !isCommented m) &&
        decide (textOf chainSource n = some (Text.ofString "x.y[!z]()")))) = true := by
    decide +kernel
  obtain ⟨root, hroot, h⟩ := (Option.any_eq_true _ _).mp hparse
  obtain ⟨n, hn, h⟩ := List.any_eq_true.mp h
  simp only [Bool.and_eq_true, decide_eq_true_eq, List.all_eq_true, Bool.not_eq_true'] at h
  obtain ⟨⟨hlength, hall⟩, htext⟩ := h
  have hwithin : Within nestingLimit n := within_of_length hlength
  have huncommented : Uncommented n :=
    fun m hm => hall m (Node.mem_preorder_iff.mpr (occursIn_of_dependsOn hm))
  have heq := (render_refines_recursion chainSource hwithin).1 huncommented
  exact ⟨root, n, hroot, hn, hwithin, huncommented, heq.trans htext⟩

def remarkSource : Source := Source.ofList "<A b={(/* c */ x)}/>".toList

/-- A comment behind the parenthesis takes the place of the operand, which then does not show. -/
theorem comment_hides_operand :
    ∃ root v n, Syntax.parse .tsx remarkSource = some root ∧ v ∈ root.preorder ∧
      v.kind = .container ∧ operand v = some n ∧ Within nestingLimit n ∧
      textOf remarkSource n = some (Text.ofString "x") ∧
      render remarkSource nestingLimit n = none ∧ attributeText remarkSource v = none := by
  have hparse : (Syntax.parse .tsx remarkSource).any (fun root => root.preorder.any (fun v =>
      (operand v).any (fun n => decide (n.preorder.length ≤ nestingLimit ∧ v.kind = .container ∧
        textOf remarkSource n = some (Text.ofString "x") ∧
        render remarkSource nestingLimit n = none ∧ attributeText remarkSource v = none)))) =
      true := by
    decide +kernel
  obtain ⟨root, hroot, h⟩ := (Option.any_eq_true _ _).mp hparse
  obtain ⟨v, hv, h⟩ := List.any_eq_true.mp h
  obtain ⟨n, hn, h⟩ := (Option.any_eq_true _ _).mp h
  obtain ⟨hlength, hkind, htext, hrender, hattribute⟩ := of_decide_eq_true h
  exact ⟨root, v, n, hroot, hv, hkind, hn, within_of_length hlength, htext, hrender, hattribute⟩

end PropAtlas.Value
