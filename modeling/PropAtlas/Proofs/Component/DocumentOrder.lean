import PropAtlas.Proofs.Component.Origin
import PropAtlas.Proofs.Syntax.Layout
import PropAtlas.Syntax.Grammar

/-! The walk finds every element that names a component, wherever it is nested, once and in document
order, with the attributes of its own tag and no others. Declarations are found in document order as
well. -/

namespace PropAtlas.Component
open PropAtlas.Syntax (Node)

/-! ### Attributes -/

/-- An attribute, which starts with its name. -/
def isAttribute (n : Node) : Bool := n.kind == .attribute && !n.children.isEmpty

/-- An object spread into an element. -/
def isSpread (n : Node) : Bool := n.kind == .container && n.children.any (·.kind = .spread)

/-- The attributes and spreads of a tag. -/
def passedIn (tag : Node) : List Node :=
  (tag.children.filter (fun c => c.field != some .name)).filter (fun c => isAttribute c || isSpread c)

/-- A usage says what a part of a tag passes to a component. -/
structure Passes (s : Source) (file component : String) (part : Node) (u : PropUsage) : Prop where
  component : u.component = component
  file : u.file = file
  line : u.line = (part.location s).line
  column : u.column = (part.location s).column
  name : u.name = if isSpread part then spreadProp else (part.children.head?.map (·.text s)).getD ""
  spread : u.spread = isSpread part

theorem isSome_attributeUsage (ctx : Context) (component : String) (n : Node) :
    (attributeUsage ctx component n).isSome = (isAttribute n || isSpread n) := by
  unfold attributeUsage isAttribute isSpread
  split
  · rename_i hk
    cases hc : n.children <;> simp [hk]
  · rename_i hk
    cases hs : n.children.any (·.kind = .spread) <;> simp [hk]
  · rename_i hna hnc
    have ha : (n.kind == .attribute) = false := beq_eq_false_iff_ne.mpr hna
    have hc : (n.kind == .container) = false := beq_eq_false_iff_ne.mpr hnc
    simp [ha, hc]

theorem passes_of_attributeUsage {ctx : Context} {component : String} {n : Node} {u : PropUsage}
    (h : attributeUsage ctx component n = some u) : Passes ctx.source ctx.file component n u := by
  unfold attributeUsage at h
  split at h
  · rename_i hk
    have hspread : isSpread n = false := by simp [isSpread, hk]
    cases hc : n.children with
    | nil => simp [hc] at h
    | cons name rest =>
      rw [hc] at h
      cases h
      exact ⟨rfl, rfl, rfl, rfl, by simp [hspread, hc, Context.usageAt], hspread.symm⟩
  · rename_i hk
    split_ifs at h with hany
    cases h
    have hspread : isSpread n = true := by simp [isSpread, hk, hany]
    exact ⟨rfl, rfl, rfl, rfl, by simp [hspread, Context.usageAt], hspread.symm⟩
  · cases h

/-- What is kept of a list is in step with what is made of it. -/
theorem forall₂_filter_filterMap {α β : Type} {f : α → Option β} {p : α → Bool} {R : α → β → Prop}
    (hp : ∀ x, (f x).isSome = p x) (hR : ∀ x y, f x = some y → R x y) (xs : List α) :
    List.Forall₂ R (xs.filter p) (xs.filterMap f) := by
  induction xs with
  | nil => exact .nil
  | cons x xs ih =>
    cases hf : f x with
    | none =>
      have hx : ¬ p x = true := by simp [← hp, hf]
      rw [List.filter_cons_of_neg hx, List.filterMap_cons_none hf]
      exact ih
    | some y =>
      have hx : p x = true := by simp [← hp, hf]
      rw [List.filter_cons_of_pos hx, List.filterMap_cons_some hf]
      exact .cons (hR x y hf) ih

/-! ### Elements -/

/-- Whether a node is an element, with or without a name. -/
def IsElement (n : Node) : Prop := n.kind = .element ∨ n.kind = .selfClosingElement

instance : DecidablePred IsElement := fun _ => instDecidableOr

/-- The part of an element that holds its name and its attributes. -/
def tagOf (n : Node) : Option Node :=
  match n.kind with
  | .element => n.child? .openTag
  | .selfClosingElement => some n
  | _ => none

/-- An element whose name is an identifier or dotted. -/
def NamesComponent (n : Node) : Prop :=
  ∃ tag ∈ tagOf n, ∃ name ∈ tag.child? .name, name.kind = .identifier ∨ name.kind = .member

/-- A site says where an element starts, what its name is, and what its own tag passes. -/
def Describes (s : Source) (file : String) (n : Node) (t : Site) : Prop :=
  t.file = file ∧ t.line = (n.location s).line ∧ t.column = (n.location s).column ∧
  ∃ tag ∈ tagOf n, ∃ name ∈ tag.child? .name,
    elementNames s name = some (t.component, t.localName) ∧
    List.Forall₂ (Passes s file t.component) (passedIn tag) t.props

theorem isSome_elementNames (s : Source) (name : Node) :
    (elementNames s name).isSome = true ↔ name.kind = .identifier ∨ name.kind = .member := by
  unfold elementNames
  split <;> simp_all

/-- The site that a node gives. -/
def siteAt? (ctx : Context) (n : Node) : Option Site := (visit ctx n).bind Finding.site?

theorem siteAt?_eq (ctx : Context) (n : Node) :
    siteAt? ctx n = (tagOf n).bind (siteOf ctx n) := by
  have hdecl (x : Option Declaration) : (x.map Finding.declaration).bind Finding.site? = none := by
    cases x <;> rfl
  have hsite (x : Option Site) : (x.map Finding.site).bind Finding.site? = x := by
    cases x <;> rfl
  unfold siteAt? visit tagOf
  split <;> rename_i hk <;> simp only [hk]
  · cases n.child? .name with
    | none => rfl
    | some name => exact hdecl _
  · cases (n.child? .name).filter (fun m => m.kind == .identifier) with
    | none => rfl
    | some name =>
      cases (n.child? .value).bind (functionOf ctx.source) with
      | none => rfl
      | some function => exact hdecl _
  · cases n.child? .openTag with
    | none => rfl
    | some tag => exact hsite _
  · exact hsite _
  · rfl

theorem isSome_siteOf {ctx : Context} (hall : ctx.selection = {}) (n tag : Node) :
    (siteOf ctx n tag).isSome = ((tag.child? .name).bind (elementNames ctx.source)).isSome := by
  have hfree : ctx.selection.target? = none := by rw [hall]; rfl
  simp only [siteOf, hfree, Option.any_none]
  cases (tag.child? .name).bind (elementNames ctx.source) <;> rfl

theorem isSome_siteAt?_iff {ctx : Context} (hall : ctx.selection = {}) (n : Node) :
    (siteAt? ctx n).isSome = true ↔ NamesComponent n := by
  rw [siteAt?_eq, NamesComponent]
  cases tagOf n with
  | none => simp
  | some tag =>
    rw [Option.bind_some, isSome_siteOf hall]
    cases hname : tag.child? .name with
    | none => simp [hname]
    | some name => simp [hname, isSome_elementNames]

theorem describes_of_siteAt? {ctx : Context} {n : Node} {t : Site} (h : siteAt? ctx n = some t) :
    Describes ctx.source ctx.file n t := by
  rw [siteAt?_eq] at h
  obtain ⟨tag, htag, h⟩ := Option.bind_eq_some_iff.mp h
  obtain ⟨⟨full, short⟩, hnames, h⟩ := Option.bind_eq_some_iff.mp h
  obtain ⟨name, hname, hnames⟩ := Option.bind_eq_some_iff.mp hnames
  dsimp only at h
  split_ifs at h
  cases h
  refine ⟨rfl, rfl, rfl, tag, htag, name, hname, hnames, ?_⟩
  exact forall₂_filter_filterMap (isSome_attributeUsage ctx full)
    (fun _ _ => passes_of_attributeUsage) _

theorem isElement_of_siteAt? {ctx : Context} {n : Node} {t : Site} (h : siteAt? ctx n = some t) :
    IsElement n := by
  rw [siteAt?_eq] at h
  obtain ⟨tag, htag, _⟩ := Option.bind_eq_some_iff.mp h
  unfold tagOf at htag
  split at htag
  · exact Or.inl ‹_›
  · exact Or.inr ‹_›
  · cases htag

/-! ### Declarations -/

/-- Whether a node may declare a component. -/
def IsDeclaring (n : Node) : Prop := n.kind = .functionDeclaration ∨ n.kind = .variableDeclarator

instance : DecidablePred IsDeclaring := fun _ => instDecidableOr

def declarationAt? (ctx : Context) (n : Node) : Option Declaration :=
  (visit ctx n).bind Finding.declaration?

theorem isDeclaring_of_declarationAt? {ctx : Context} {n : Node} {d : Declaration}
    (h : declarationAt? ctx n = some d) : IsDeclaring n := by
  have hsite (x : Option Site) : (x.map Finding.site).bind Finding.declaration? ≠ some d := by
    cases x <;> simp [Finding.declaration?]
  unfold declarationAt? visit at h
  split at h
  · exact Or.inl ‹_›
  · exact Or.inr ‹_›
  · cases ht : n.child? .openTag with
    | none => simp [ht] at h
    | some tag =>
      rw [ht] at h
      exact absurd h (hsite _)
  · exact absurd h (hsite _)
  · cases h

/-- A node that gives a declaration is the place of it. -/
theorem eq_declaredAt_of_declarationAt? {ctx : Context} {n : Node} {d : Declaration}
    (h : declarationAt? ctx n = some d) :
    ∃ component function, d = declaredAt ctx component n function := by
  obtain ⟨f, hf, hd⟩ := Option.bind_eq_some_iff.mp h
  cases f with
  | site t => cases hd
  | declaration d' =>
    cases hd
    obtain ⟨component, function, hn⟩ := declare_of_visit hf
    exact ⟨component, function, eq_declaredAt_of_declare hn⟩

theorem location_of_declarationAt? {ctx : Context} {n : Node} {d : Declaration}
    (h : declarationAt? ctx n = some d) :
    d.line = (n.location ctx.source).line ∧ d.column = (n.location ctx.source).column := by
  obtain ⟨component, function, rfl⟩ := eq_declaredAt_of_declarationAt? h
  exact ⟨rfl, rfl⟩

/-! ### Document order -/

/-- A tree as it is built over a source: every node holds its children in order and apart, the root
ends inside the source, and no element or declaration starts where one that is nested in it does. -/
structure WellPlaced (s : Source) (root : Node) : Prop where
  laidOut : ∀ n : Node, n.OccursIn root → n.LaidOut
  inSource : root.span.stop ≤ s.size
  elements : Node.Leading IsElement root
  declarations : Node.Leading IsDeclaring root

instance (s : Source) (root : Node) : Decidable (WellPlaced s root) :=
  decidable_of_iff
    ((∀ n ∈ root.preorder, n.LaidOut) ∧ root.span.stop ≤ s.size ∧ Node.Leading IsElement root ∧
      Node.Leading IsDeclaring root)
    ⟨fun h => ⟨fun n hn => h.1 n (Node.mem_preorder_iff.mpr hn), h.2.1, h.2.2.1, h.2.2.2⟩,
      fun h => ⟨fun n hn => h.laidOut n (Node.mem_preorder_iff.mp hn), h.inSource, h.elements,
        h.declarations⟩⟩

/-- Nodes that are met one after the other have locations one after the other. -/
theorem locations_increasing {s : Source} {root : Node}
    (hlaid : ∀ n : Node, n.OccursIn root → n.LaidOut) (hs : root.span.stop ≤ s.size)
    {p : Node → Prop} (hp : Node.Leading p root) {α : Type} {f : Node → Option α}
    {line column : α → Int} (hf : ∀ n a, f n = some a → p n ∧ line a = (n.location s).line ∧
      column a = (n.location s).column) :
    (root.preorder.filterMap f).Pairwise
      (fun a b => toLex (line a, column a) < toLex (line b, column b)) := by
  rw [List.pairwise_filterMap]
  refine (Node.preorder_starts hlaid hp).imp_of_mem ?_
  intro n m hn hm hstart a ha b hb
  obtain ⟨hpn, hla, hca⟩ := hf n a ha
  obtain ⟨hpm, hlb, hcb⟩ := hf m b hb
  have hm := Node.mem_preorder_iff.mp hm
  have hstop := (Node.span_of_occursIn hlaid hm).2
  have hne := hp.nonempty m hm hpm
  have hlt := s.rank_location_lt (hstart hpn hpm) (by omega)
  rw [hla, hca, hlb, hcb]
  rcases Prod.Lex.toLex_lt_toLex.mp hlt with h | ⟨h, h'⟩
  · exact Prod.Lex.toLex_lt_toLex.mpr (Or.inl (Int.ofNat_lt.mpr h))
  · exact Prod.Lex.toLex_lt_toLex.mpr (Or.inr ⟨congrArg Int.ofNat h, Int.ofNat_lt.mpr h'⟩)

/-- The findings come in document order, because the walk does. -/
theorem findings_eq (ctx : Context) (root : Node) :
    findings ctx root = root.preorder.filterMap (visit ctx) := by
  rw [findings, Node.walk_eq_preorder]

theorem sites_eq (s : Source) (file : String) (root : Node)
    (supplied : Option (Table String PropsInterface)) :
    (extract s file root {} supplied).sites =
      root.preorder.filterMap (siteAt? ⟨s, file, {}, supplied.getD (interfaces s root)⟩) := by
  change (findings _ root).filterMap Finding.site? = _
  rw [findings_eq]
  exact List.filterMap_filterMap

/-- What the nodes of a tree are read by. -/
def contextOf (s : Source) (file : String) (root : Node) (o : Selection)
    (supplied : Option (Table String PropsInterface)) : Context :=
  ⟨s, file, o, if o.types then supplied.getD (interfaces s root) else []⟩

theorem declarations_extract (s : Source) (file : String) (root : Node) (o : Selection)
    (supplied : Option (Table String PropsInterface)) :
    (extract s file root o supplied).declarations =
      root.preorder.filterMap (declarationAt? (contextOf s file root o supplied)) := by
  change (findings _ root).filterMap Finding.declaration? = _
  rw [findings_eq]
  exact List.filterMap_filterMap

theorem declarations_eq (s : Source) (file : String) (root : Node)
    (supplied : Option (Table String PropsInterface)) :
    (extract s file root {} supplied).declarations =
      root.preorder.filterMap (declarationAt? ⟨s, file, {}, supplied.getD (interfaces s root)⟩) :=
  declarations_extract s file root {} supplied

/-- Each element of a tree that names a component gives one site, which describes it, and nothing else
gives one; the elements are met in the order in which they start. Sites and declarations are in the
order of their lines and columns, no two at one place. -/
theorem extract_in_document_order (s : Source) (file : String) (root : Node)
    (supplied : Option (Table String PropsInterface)) (h : WellPlaced s root) :
    (∃ elements : List Node, (∀ n, n ∈ elements ↔ n.OccursIn root ∧ NamesComponent n) ∧
      elements.Pairwise (fun a b => a.span.start < b.span.start) ∧
      List.Forall₂ (Describes s file) elements (extract s file root {} supplied).sites) ∧
    (extract s file root {} supplied).sites.Pairwise
      (fun a b => toLex (a.line, a.column) < toLex (b.line, b.column)) ∧
    (extract s file root {} supplied).declarations.Pairwise
      (fun a b => toLex (a.line, a.column) < toLex (b.line, b.column)) := by
  let ctx : Context := ⟨s, file, {}, supplied.getD (interfaces s root)⟩
  have hdescribes (n : Node) (t : Site) (ht : siteAt? ctx n = some t) : Describes s file n t :=
    describes_of_siteAt? ht
  rw [sites_eq, declarations_eq]
  refine ⟨⟨root.preorder.filter (fun n => (siteAt? ctx n).isSome), ?_, ?_, ?_⟩, ?_, ?_⟩
  · intro n
    rw [List.mem_filter, Node.mem_preorder_iff, isSome_siteAt?_iff rfl]
  · rw [List.pairwise_filter]
    refine (Node.preorder_starts h.laidOut h.elements).imp ?_
    intro a b hab ha hb
    obtain ⟨t, ht⟩ := Option.isSome_iff_exists.mp ha
    obtain ⟨u, hu⟩ := Option.isSome_iff_exists.mp hb
    exact hab (isElement_of_siteAt? ht) (isElement_of_siteAt? hu)
  · exact forall₂_filter_filterMap (fun _ => rfl) hdescribes _
  · apply locations_increasing h.laidOut h.inSource h.elements
    intro n t ht
    obtain ⟨_, hl, hc, _⟩ := hdescribes n t ht
    exact ⟨isElement_of_siteAt? ht, hl, hc⟩
  · apply locations_increasing h.laidOut h.inSource h.declarations
    intro n d hd
    exact ⟨isDeclaring_of_declarationAt? hd, location_of_declarationAt? hd⟩

/-- A function that returns a fragment, with an element in an attribute of another one. -/
def nestedSource : Source :=
  Source.ofList "function F() { return <><A b={<C.D {...e}/>} c/></>; }".toList

theorem extract_in_document_order_nested :
    ∃ root, Syntax.parse .tsx nestedSource = some root ∧ WellPlaced nestedSource root ∧
      (extract nestedSource "f" root {} none).sites.map (·.component) = ["A", "C.D"] ∧
      (extract nestedSource "f" root {} none).sites.Pairwise
        (fun a b => toLex (a.line, a.column) < toLex (b.line, b.column)) := by
  have hparse : (Syntax.parse .tsx nestedSource).any (fun root =>
      decide (WellPlaced nestedSource root ∧
        (extract nestedSource "f" root {} none).sites.map (·.component) = ["A", "C.D"])) = true := by
    decide +kernel
  obtain ⟨root, hroot, h⟩ := (Option.any_eq_true _ _).mp hparse
  obtain ⟨hplaced, hsites⟩ := of_decide_eq_true h
  exact ⟨root, hroot, hplaced, hsites,
    (extract_in_document_order nestedSource "f" root none hplaced).2.1⟩

end PropAtlas.Component
