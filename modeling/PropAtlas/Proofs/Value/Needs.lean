import Mathlib.Logic.Relation
import PropAtlas.Proofs.Syntax.Layout
import PropAtlas.Proofs.Value.Texts

/-! What a text is made of: the expressions whose texts it takes up, which of them are complete or have a
comment in the way, and how deeply they nest. An expression has a text if all of them are complete. -/

namespace PropAtlas.Value

open PropAtlas (Source Text)
open PropAtlas.Syntax (Node Kind Field)

variable {s : Source} {n : Node}

/-- The operands of the substitutions among the children of a template. -/
def holes (cs : List Node) : List Node :=
  (cs.filter (fun c => c.kind == .substitution)).filterMap operand

theorem holes_substitution {c : Node} (hc : c.kind = .substitution) (cs : List Node) :
    holes (c :: cs) = (operand c).toList ++ holes cs := by
  cases ho : operand c with
  | none => simp [holes, hc, ho]
  | some m => simp [holes, hc, ho]

theorem holes_other {c : Node} (hc : c.kind ≠ .substitution) (cs : List Node) :
    holes (c :: cs) = holes cs := by
  simp [holes, hc]

/-- The expression between the brackets of an index. -/
def indices (n : Node) : List Node :=
  if n.kind = .subscript then (n.child? .index).toList else []

/-- The expressions that the text of an expression is made of. -/
def needs (n : Node) : List Node :=
  match n.kind with
  | .member => (n.child? .object).toList
  | .subscript => (n.child? .object).toList ++ (n.child? .index).toList
  | .call => (n.child? .function).toList
  | .unary => (n.child? .argument).toList
  | .parenthesized | .wrapped => (operand n).toList
  | .template => holes n.children
  | _ => []

/-- Whether the text of an expression depends on another one, at any depth. -/
def DependsOn : Node → Node → Prop := Relation.ReflTransGen (fun n m => m ∈ needs n)

/-- Whether an expression is of a kind that has a text and has all that the text is made of. -/
def isComplete (n : Node) : Bool :=
  match n.kind with
  | .string | .number | .keyword | .identifier | .shorthandName => true
  | .arrowFunction | .functionExpression | .object | .array => true
  | .member => (n.child? .object).isSome && (n.child? .property).isSome
  | .subscript => (n.child? .object).isSome && (n.child? .index).isSome
  | .call => (n.child? .function).isSome
  | .unary => (n.child? .operator).isSome && (n.child? .argument).isSome
  | .parenthesized | .wrapped => (operand n).isSome
  | .template => n.children.all (fun c => c.kind != .substitution || (operand c).isSome)
  | _ => false

/-- Whether there is a comment in front of all else. -/
def startsWithComment (n : Node) : Bool := n.children.head?.any (fun c => c.kind == .comment)

/-- Whether a comment stands in front of what a wrapper or a substitution of a template is around. -/
def isCommented (n : Node) : Bool :=
  match n.kind with
  | .parenthesized | .wrapped => startsWithComment n
  | .template => n.children.any (fun c => c.kind == .substitution && startsWithComment c)
  | _ => false

/-- Whether `n` is the link of a chain that comes after the link `m`. -/
def isBeside (n m : Node) : Bool :=
  (linkField n.kind).isSome && (linkField m.kind).isSome && m.field == linkField n.kind

/-- Whether at most so many expressions are nested in one another where the text of an expression is
made. The links of one chain are not nested. -/
inductive Within : Nat → Node → Prop where
  | intro {d : Nat} {n : Node}
      (h : ∀ m ∈ needs n, Within (if isBeside n m then d + 1 else d) m) : Within (d + 1) n

theorem nestedIn_of_operand {m : Node} (h : operand n = some m) : m.NestedIn n :=
  ⟨m, List.mem_of_find?_eq_some h, .root⟩

theorem nestedIn_of_mem_needs {m : Node} (h : m ∈ needs n) : m.NestedIn n := by
  have hchild {f : Field} (hm : m ∈ (n.child? f).toList) : m.NestedIn n :=
    ⟨m, List.mem_of_find?_eq_some (Option.mem_toList.mp hm), .root⟩
  unfold needs at h
  split at h
  · exact hchild h
  · exact (List.mem_append.mp h).elim hchild hchild
  · exact hchild h
  · exact hchild h
  · exact nestedIn_of_operand (Option.mem_toList.mp h)
  · exact nestedIn_of_operand (Option.mem_toList.mp h)
  · obtain ⟨c, hc, hm⟩ := List.mem_filterMap.mp h
    obtain ⟨b, hb, hmb⟩ := nestedIn_of_operand hm
    exact ⟨c, List.mem_of_mem_filter hc, .child hb hmb⟩
  · exact absurd h List.not_mem_nil

theorem occursIn_of_dependsOn {m : Node} (h : DependsOn n m) : m.OccursIn n := by
  induction h using Relation.ReflTransGen.head_induction_on with
  | refl => exact .root
  | head hstep _ ih =>
    obtain ⟨c, hc, hbc⟩ := nestedIn_of_mem_needs hstep
    exact .child hc (ih.trans hbc)

theorem length_preorder_of_mem_needs {m : Node} (h : m ∈ needs n) :
    m.preorder.length < n.preorder.length := by
  obtain ⟨c, hc, hm⟩ := nestedIn_of_mem_needs h
  exact lt_of_le_of_lt hm.length_preorder_le (Node.length_preorder_of_mem hc)

/-- What holds of an expression if it holds of all that its text is made of holds always. -/
@[elab_as_elim]
theorem needs_induction {motive : Node → Prop}
    (h : ∀ n, (∀ m ∈ needs n, motive m) → motive n) (n : Node) : motive n := by
  induction hn : n.preorder.length using Nat.strongRecOn generalizing n with
  | _ k ih =>
    apply h
    intro m hm
    exact ih m.preorder.length (hn ▸ length_preorder_of_mem_needs hm) m rfl

theorem linkField_cases {f : Field} (hf : linkField n.kind = some f) :
    (n.kind = .member ∧ f = .object) ∨ (n.kind = .subscript ∧ f = .object) ∨
      (n.kind = .call ∧ f = .function) := by
  cases hk : n.kind with
  | member | subscript | call =>
    rw [hk] at hf
    cases hf
    simp
  | _ =>
    rw [hk] at hf
    cases hf

theorem needs_link {f : Field} (hf : linkField n.kind = some f) :
    needs n = (n.child? f).toList ++ indices n := by
  rcases linkField_cases hf with ⟨hk, rfl⟩ | ⟨hk, rfl⟩ | ⟨hk, rfl⟩
  · simp [needs, indices, hk]
  · simp [needs, indices, hk]
  · simp [needs, indices, hk]

theorem isCommented_link {f : Field} (hf : linkField n.kind = some f) : isCommented n = false := by
  rcases linkField_cases hf with ⟨hk, _⟩ | ⟨hk, _⟩ | ⟨hk, _⟩
  · simp only [isCommented, hk]
  · simp only [isCommented, hk]
  · simp only [isCommented, hk]

theorem within_zero : ¬ Within 0 n := nofun

theorem within_succ {d : Nat} :
    Within (d + 1) n ↔ ∀ m ∈ needs n, Within (if isBeside n m then d + 1 else d) m :=
  ⟨fun h => by cases h with | intro h => exact h, Within.intro⟩

/-- A property of all that an expression depends on, one step at a time. -/
theorem forall_dependsOn_iff {p : Node → Prop} :
    (∀ m, DependsOn n m → p m) ↔ p n ∧ ∀ c ∈ needs n, ∀ m, DependsOn c m → p m := by
  constructor
  · intro h
    exact ⟨h n .refl, fun c hc m hm => h m (.head hc hm)⟩
  · rintro ⟨hn, hneeds⟩ m hm
    rcases Relation.ReflTransGen.cases_head hm with rfl | ⟨c, hc, hcm⟩
    · exact hn
    · exact hneeds c hc m hcm

/-! ### Expressions without a text -/

theorem isSome_bind_map {α β γ : Type} (x : Option α) (y : Option β) (f : α → β → γ) :
    (x.bind (fun a => y.map (f a))).isSome = (x.isSome && y.isSome) := by
  cases x with
  | none => rfl
  | some a => simp

theorem isSome_part (c : Option Node) (F : Node → Option Text) :
    (c.bind F).isSome = (c.isSome && c.toList.all (fun m => (F m).isSome)) := by
  cases c with
  | none => rfl
  | some m => simp

theorem isSome_foldedText (stop start : Nat) (cs : List Node) :
    (foldedText s stop start cs).isSome =
      (cs.all (fun c => c.kind != .substitution || (operand c).isSome) &&
        (holes cs).all (fun m => (textOf s m).isSome)) := by
  induction cs generalizing start with
  | nil =>
    rw [foldedText]
    rfl
  | cons c cs ih =>
    by_cases hc : c.kind = .substitution
    · have hkind : (c.kind != .substitution) = false := bne_eq_false_iff_eq.mpr hc
      rw [foldedText_substitution hc, holes_substitution hc, isSome_bind_map, isSome_part, ih,
        List.all_cons, List.all_append, hkind, Bool.false_or]
      ac_rfl
    · have hkind : (c.kind != .substitution) = true := bne_iff_ne.mpr hc
      rw [foldedText_other hc, holes_other hc, ih, List.all_cons, hkind, Bool.true_or,
        Bool.true_and]

/-- An expression has a text if it is complete and all that its text is made of has one. -/
theorem isSome_textOf (s : Source) (n : Node) :
    (textOf s n).isSome = (isComplete n && (needs n).all (fun m => (textOf s m).isSome)) := by
  cases hk : n.kind with
  | member =>
    have hf : linkField n.kind = some .object := congrArg linkField hk
    rw [textOf_link hf, isSome_bind_map, isSome_part]
    simp only [linkText, isComplete, needs, hk, Option.isSome_map]
    ac_rfl
  | subscript =>
    have hf : linkField n.kind = some .object := congrArg linkField hk
    rw [textOf_link hf, isSome_bind_map, isSome_part]
    simp only [linkText, isComplete, needs, hk, isSome_part, Option.isSome_map, List.all_append]
    ac_rfl
  | call =>
    have hf : linkField n.kind = some .function := congrArg linkField hk
    rw [textOf_link hf, isSome_bind_map, isSome_part]
    simp only [linkText, isComplete, needs, hk, Option.isSome_some, Bool.and_true]
  | unary =>
    rw [textOf_unary hk, isSome_bind_map, isSome_part]
    simp only [isComplete, needs, hk]
    ac_rfl
  | parenthesized | wrapped =>
    rw [textOf_wrapper (by simp [hk]), isSome_part]
    simp only [isComplete, needs, hk]
  | template =>
    rw [textOf_template hk, isSome_foldedText]
    simp only [isComplete, needs, hk]
  | _ =>
    -- The text is fixed, or there is none, whatever the parts are.
    obtain ⟨kind, field, span, cs⟩ := n
    cases hk
    rw [textOf.eq_def]
    rfl

theorem isSome_textOf_iff :
    (textOf s n).isSome ↔ ∀ m, DependsOn n m → isComplete m = true := by
  induction n using needs_induction with
  | h n ih =>
    rw [isSome_textOf, Bool.and_eq_true, List.all_eq_true, forall_dependsOn_iff]
    refine and_congr_right (fun _ => ?_)
    exact forall₂_congr ih

end PropAtlas.Value
