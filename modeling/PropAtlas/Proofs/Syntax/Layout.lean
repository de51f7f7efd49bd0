import PropAtlas.Syntax.Node
import Mathlib.Data.List.Basic
import Mathlib.Data.Prod.Lex

/-! Trees laid out over a source. The nodes of a tree come in document order, each before what is
nested in it, and the places where they start are in the order of lines and columns. -/

namespace PropAtlas

/-! ### Places in a source -/

namespace Location

/-- Locations in the order of their lines, then of their columns. -/
def rank (l : Location) : ℕ ×ₗ ℕ := toLex (l.line, l.column)

theorem rank_lt_advance (l : Location) (c : Char) : l.rank < (l.advance c).rank := by
  unfold rank advance
  split_ifs with hc
  · exact Prod.Lex.toLex_lt_toLex.mpr (Or.inl (Nat.lt_succ_self _))
  · have hsize : 0 < c.utf8Size := c.utf8Size_pos
    exact Prod.Lex.toLex_lt_toLex.mpr (Or.inr ⟨rfl, by dsimp only; omega⟩)

theorem rank_le_foldl_advance (l : Location) (cs : List Char) :
    l.rank ≤ (cs.foldl advance l).rank := by
  induction cs generalizing l with
  | nil => exact le_rfl
  | cons c cs ih => exact le_trans (rank_lt_advance l c).le (ih _)

end Location

namespace Source

theorem slice_zero (s : Source) (n : Nat) : s.slice 0 n = s.chars.toList.take n := by
  rw [slice, Array.toList_extract, List.extract_eq_take_drop]
  simp

/-- A later offset of a source has a later location. -/
theorem rank_location_lt (s : Source) {i j : Nat} (hij : i < j) (hj : j ≤ s.size) :
    (s.location i).rank < (s.location j).rank := by
  obtain ⟨k, rfl⟩ : ∃ k, j = i + (k + 1) := ⟨j - i - 1, by omega⟩
  have hi : i < s.chars.toList.length := by
    rw [Array.length_toList]
    exact Nat.lt_of_lt_of_le hij hj
  -- What is read up to the later offset is what is read up to the first, a character and some more.
  have hsplit : s.chars.toList.take (i + (k + 1)) = s.chars.toList.take i ++
      s.chars.toList[i] :: (s.chars.toList.drop (i + 1)).take k := by
    rw [List.take_add, List.drop_eq_getElem_cons hi, List.take_succ_cons]
  rw [location, location, slice_zero, slice_zero, hsplit, List.foldl_append, List.foldl_cons]
  exact lt_of_lt_of_le (Location.rank_lt_advance _ _) (Location.rank_le_foldl_advance _ _)

theorem rank_location_le (s : Source) {i j : Nat} (hij : i ≤ j) (hj : j ≤ s.size) :
    (s.location i).rank ≤ (s.location j).rank := by
  rcases Nat.lt_or_eq_of_le hij with hlt | rfl
  · exact (s.rank_location_lt hlt hj).le
  · exact le_rfl

end Source

namespace Syntax.Node

/-! ### Nodes of a tree -/

mutual

theorem preorderOnto_eq (n : Node) (rest : List Node) :
    n.preorderOnto rest = n.preorder ++ rest := by
  cases n with
  | mk k f s cs =>
    rw [preorder, preorderOnto, preorderOnto, forestOnto_eq cs rest, forestOnto_eq cs []]
    simp

theorem forestOnto_eq (cs rest : List Node) :
    forestOnto cs rest = cs.flatMap preorder ++ rest := by
  cases cs with
  | nil => rfl
  | cons c cs =>
    rw [forestOnto, preorderOnto_eq c, forestOnto_eq cs rest, List.flatMap_cons, List.append_assoc]

end

theorem preorder_eq (n : Node) : n.preorder = n :: n.children.flatMap preorder := by
  cases n with
  | mk k f s cs =>
    rw [preorder, preorderOnto, forestOnto_eq, List.append_nil]
    rfl

/-- What a walk still has to meet is what the nodes on its stack hold. -/
theorem walkFrom_eq_flatMap (stack : List Node) : walkFrom stack = stack.flatMap preorder := by
  fun_induction walkFrom stack with
  | case1 => rfl
  | case2 kind field span children stack ih =>
    rw [ih, List.flatMap_append, List.flatMap_cons, preorder_eq]
    rfl

/-- A walk with a stack meets the nodes of a tree in document order. -/
theorem walk_eq_preorder (n : Node) : n.walk = n.preorder := by
  rw [walk, walkFrom_eq_flatMap, List.flatMap_singleton]

/-- What holds of a node if it holds of its children holds of every node. -/
@[elab_as_elim]
theorem induction {motive : Node → Prop}
    (h : ∀ n, (∀ c ∈ n.children, motive c) → motive n) (n : Node) : motive n := by
  cases n with
  | mk k f s cs =>
    apply h
    intro c hc
    have : sizeOf c < sizeOf cs := List.sizeOf_lt_of_mem hc
    exact induction h c
termination_by sizeOf n
decreasing_by
  simp only [Node.mk.sizeOf_spec]
  omega

/-- A node is in a tree: it is the root, or it is in the tree of a child. -/
inductive OccursIn (n : Node) : Node → Prop where
  | root : OccursIn n n
  | child {c root : Node} (hc : c ∈ root.children) (h : OccursIn n c) : OccursIn n root

/-- A node is nested in another one. -/
def NestedIn (n root : Node) : Prop := ∃ c ∈ root.children, n.OccursIn c

/-- What holds of a node if it holds of all that is nested in it holds of every node. -/
@[elab_as_elim]
theorem nested_induction {motive : Node → Prop}
    (h : ∀ n, (∀ m : Node, m.NestedIn n → motive m) → motive n) (n : Node) : motive n := by
  have hall (n : Node) : ∀ m : Node, m.OccursIn n → motive m := by
    induction n using Node.induction with
    | h n ih =>
      intro m hm
      cases hm with
      | root => exact h n (fun k ⟨c, hc, hk⟩ => ih c hc k hk)
      | child hc hm => exact ih _ hc m hm
  exact hall n n .root

theorem OccursIn.trans {a b c : Node} (hab : a.OccursIn b) (hbc : b.OccursIn c) :
    a.OccursIn c := by
  induction hbc with
  | root => exact hab
  | child hc _ ih => exact .child hc ih

theorem length_preorder_of_mem {c n : Node} (h : c ∈ n.children) :
    c.preorder.length < n.preorder.length := by
  have hle : c.preorder.length ≤ (n.children.flatMap preorder).length :=
    (List.sublist_flatten_of_mem (List.mem_map_of_mem h)).length_le
  rw [n.preorder_eq, List.length_cons]
  omega

theorem OccursIn.length_preorder_le {n root : Node} (h : n.OccursIn root) :
    n.preorder.length ≤ root.preorder.length := by
  induction h with
  | root => exact le_rfl
  | child hc _ ih => exact ih.trans (length_preorder_of_mem hc).le

theorem mem_preorder_iff {n root : Node} : n ∈ root.preorder ↔ n.OccursIn root := by
  induction root using Node.induction with
  | h root ih =>
    rw [preorder_eq, List.mem_cons, List.mem_flatMap]
    constructor
    · rintro (rfl | ⟨c, hc, hn⟩)
      · exact .root
      · exact .child hc ((ih c hc).mp hn)
    · intro h
      cases h with
      | root => exact Or.inl rfl
      | child hc h => exact Or.inr ⟨_, hc, (ih _ hc).mpr h⟩

/-! ### Order -/

/-- The children of a node lie inside its span, in source order and without overlap. -/
structure LaidOut (n : Node) : Prop where
  inside : ∀ c ∈ n.children, n.span.start ≤ c.span.start ∧ c.span.stop ≤ n.span.stop
  ordered : n.children.Pairwise (fun a b => a.span.stop ≤ b.span.start)

/-- The nodes of a class are not empty, and each starts before those that are nested in it. -/
structure Leading (p : Node → Prop) (root : Node) : Prop where
  nonempty : ∀ n, n.OccursIn root → p n → n.span.start < n.span.stop
  before : ∀ n m, n.OccursIn root → p n → m.NestedIn n → p m → n.span.start < m.span.start

instance (n : Node) : Decidable n.LaidOut :=
  decidable_of_iff
    ((∀ c ∈ n.children, n.span.start ≤ c.span.start ∧ c.span.stop ≤ n.span.stop) ∧
      n.children.Pairwise (fun a b => a.span.stop ≤ b.span.start))
    ⟨fun h => ⟨h.1, h.2⟩, fun h => ⟨h.inside, h.ordered⟩⟩

theorem leading_iff {p : Node → Prop} {root : Node} :
    Leading p root ↔ (∀ n ∈ root.preorder, p n → n.span.start < n.span.stop) ∧
      ∀ n ∈ root.preorder, p n → ∀ m ∈ n.children.flatMap preorder, p m →
        n.span.start < m.span.start := by
  have hnested (n m : Node) : m ∈ n.children.flatMap preorder ↔ m.NestedIn n := by
    simp only [List.mem_flatMap, mem_preorder_iff, NestedIn]
  simp only [mem_preorder_iff, hnested]
  constructor
  · intro h
    exact ⟨h.nonempty, fun n hn hp m hm => h.before n m hn hp hm⟩
  · rintro ⟨hne, hbefore⟩
    exact ⟨hne, fun n m hn hp hm => hbefore n hn hp m hm⟩

instance (p : Node → Prop) [DecidablePred p] (root : Node) : Decidable (Leading p root) :=
  decidable_of_iff _ leading_iff.symm

theorem span_of_occursIn {root n : Node} (hlaid : ∀ m : Node, m.OccursIn root → m.LaidOut)
    (h : n.OccursIn root) : root.span.start ≤ n.span.start ∧ n.span.stop ≤ root.span.stop := by
  induction h with
  | root => exact ⟨le_rfl, le_rfl⟩
  | child hc h ih =>
    obtain ⟨hstart, hstop⟩ := (hlaid _ .root).inside _ hc
    obtain ⟨hstart', hstop'⟩ := ih (fun m hm => hlaid m (.child hc hm))
    exact ⟨hstart.trans hstart', hstop'.trans hstop⟩

/-- In document order, what relates the starts of nodes to the starts of those nested in them relates
the starts of all nodes, if it relates a start to every later one. -/
theorem preorder_starts_of {p : Node → Prop} {R : Nat → Nat → Prop} (hR : ∀ i j, i < j → R i j)
    {root : Node} (hlaid : ∀ n : Node, n.OccursIn root → n.LaidOut)
    (hne : ∀ n : Node, n.OccursIn root → p n → n.span.start < n.span.stop)
    (hbefore : ∀ n m : Node, n.OccursIn root → p n → m.NestedIn n → p m →
      R n.span.start m.span.start) :
    root.preorder.Pairwise (fun a b => p a → p b → R a.span.start b.span.start) := by
  induction root using Node.induction with
  | h root ih =>
    have hsub (c : Node) (hc : c ∈ root.children) : ∀ n : Node, n.OccursIn c → n.OccursIn root :=
      fun n hn => .child hc hn
    rw [preorder_eq, List.pairwise_cons, List.pairwise_flatMap]
    refine ⟨?_, ?_, ?_⟩
    · intro m hm hroot hpm
      obtain ⟨c, hc, hmc⟩ := List.mem_flatMap.mp hm
      exact hbefore root m .root hroot ⟨c, hc, mem_preorder_iff.mp hmc⟩ hpm
    · intro c hc
      exact ih c hc (fun n hn => hlaid n (hsub c hc n hn)) (fun n hn => hne n (hsub c hc n hn))
        (fun n m hn => hbefore n m (hsub c hc n hn))
    · -- Of two children, what is in the first one starts before its end, and the second one after it.
      refine (hlaid root .root).ordered.imp_of_mem ?_
      intro a b ha hb hab x hx y hy hpx _
      have hx := mem_preorder_iff.mp hx
      have hxa := span_of_occursIn (fun n hn => hlaid n (hsub a ha n hn)) hx
      have hyb := span_of_occursIn (fun n hn => hlaid n (hsub b hb n hn)) (mem_preorder_iff.mp hy)
      have hnonempty := hne x (hsub a ha x hx) hpx
      apply hR
      omega

/-- In document order, the nodes of a leading class start one after the other. -/
theorem preorder_starts {p : Node → Prop} {root : Node}
    (hlaid : ∀ n : Node, n.OccursIn root → n.LaidOut) (hp : Leading p root) :
    root.preorder.Pairwise (fun a b => p a → p b → a.span.start < b.span.start) :=
  preorder_starts_of (fun _ _ hlt => hlt) hlaid hp.nonempty hp.before

/-- In document order, no node starts before an earlier one that is not empty. -/
theorem preorder_starts_le {p : Node → Prop} {root : Node}
    (hlaid : ∀ n : Node, n.OccursIn root → n.LaidOut)
    (hne : ∀ n : Node, n.OccursIn root → p n → n.span.start < n.span.stop) :
    root.preorder.Pairwise (fun a b => p a → p b → a.span.start ≤ b.span.start) := by
  apply preorder_starts_of (fun _ _ => Nat.le_of_lt) hlaid hne
  rintro n m hn _ ⟨c, hc, hm⟩ _
  exact (span_of_occursIn (fun k hk => hlaid k (hk.trans hn)) (.child hc hm)).1

end Syntax.Node

end PropAtlas
