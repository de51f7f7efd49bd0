import PropAtlas.Proofs.Component.DocumentOrder
import PropAtlas.Proofs.Value.Invariance

/-! Which values of variables are components. A function may stand in parentheses, under type
annotations and in calls of wrappers, in any order and to any depth; what is around it changes nothing
about the component, and no other value makes one. -/

namespace PropAtlas.Component
open PropAtlas.Syntax (Node Kind)
open PropAtlas.Value (operand isWrapper CommentFree)

/-! ### Derivations -/

/-- A function that is written as an expression. -/
def IsFunction (n : Node) : Prop := n.kind = .arrowFunction ∨ n.kind = .functionExpression

/-- A value is a function `f` with nothing but parentheses, type annotations and calls of wrappers
around it. A wrapper is told by the text of what is called, with type arguments or without, and has the
function as its first argument. -/
inductive Wraps (s : Source) (f : Node) : Node → Prop where
  | function (hf : IsFunction f) : Wraps s f f
  | enclosed {n inner : Node} (hk : isWrapper n.kind = true) (hinner : operand n = some inner)
      (h : Wraps s f inner) : Wraps s f n
  | call {n callee args first : Node} (hk : n.kind = .call)
      (hcallee : n.child? .function = some callee) (hname : callee.text s ∈ wrappers)
      (hargs : n.child? .arguments = some args) (hlist : args.kind = .argumentList)
      (hfirst : operand args = some first) (h : Wraps s f first) : Wraps s f n

/-- Whether the parts of a node are expressions. -/
def holdsExpressions (k : Kind) : Bool := isWrapper k || k == .argumentList

/-- The shape of an expression: function declarations are statements and no part of one, and a call has
a list of arguments or a template, whose parts are its substitutions. -/
structure IsExpression (v : Node) : Prop where
  isValue : v.kind ≠ .functionDeclaration
  parts : ∀ m : Node, m.OccursIn v → holdsExpressions m.kind = true →
    ∀ c ∈ m.children, c.kind ≠ .functionDeclaration
  arguments : ∀ m : Node, m.OccursIn v → m.kind = .call → ∀ args ∈ m.child? .arguments,
    args.kind = .argumentList ∨ ∀ c ∈ args.children, c.kind = .substitution

instance (v : Node) : Decidable (IsExpression v) :=
  decidable_of_iff (v.kind ≠ .functionDeclaration ∧
      (∀ m ∈ v.preorder, holdsExpressions m.kind = true →
        ∀ c ∈ m.children, c.kind ≠ .functionDeclaration) ∧
      ∀ m ∈ v.preorder, m.kind = .call → ∀ args ∈ m.child? .arguments,
        args.kind = .argumentList ∨ ∀ c ∈ args.children, c.kind = .substitution)
    ⟨fun h => ⟨h.1, fun m hm => h.2.1 m (Node.mem_preorder_iff.mpr hm),
        fun m hm => h.2.2 m (Node.mem_preorder_iff.mpr hm)⟩,
      fun h => ⟨h.isValue, fun m hm => h.parts m (Node.mem_preorder_iff.mp hm),
        fun m hm => h.arguments m (Node.mem_preorder_iff.mp hm)⟩⟩

section Derivations

variable {s : Source} {f n v c m : Node}

theorem IsExpression.part (hv : IsExpression v) (hm : m.OccursIn v)
    (hk : holdsExpressions m.kind = true) (hc : c ∈ m.children) : IsExpression c := by
  have hcv : c.OccursIn v := .trans (.child hc .root) hm
  exact ⟨hv.parts m hm hk c hc, fun k hk => hv.parts k (hk.trans hcv),
    fun k hk => hv.arguments k (hk.trans hcv)⟩

theorem commentFree_of_occursIn (hv : CommentFree v) (hm : m.OccursIn v) : CommentFree m :=
  fun k hk => hv k (hk.trans hm)

/-- Without comments, what is inside comes first. -/
theorem operand_eq_head? (hn : CommentFree n) : operand n = n.children.head? := by
  rw [operand]
  cases hcs : n.children with
  | nil => rfl
  | cons c cs =>
    have hc : c.kind ≠ .comment := hn c (.child (hcs ▸ List.mem_cons_self) .root)
    rw [List.find?_cons_of_pos (by simpa using hc), List.head?_cons]

theorem occursIn_of_child? {g : Syntax.Field} (h : n.child? g = some c) : c.OccursIn n :=
  .child (List.mem_of_find?_eq_some h) .root

theorem occursIn_of_operand (h : operand n = some c) : c.OccursIn n :=
  .child (List.mem_of_find?_eq_some h) .root

/-! ### The search for the function, kind by kind -/

theorem functionOf_function (hf : IsFunction n) : functionOf s n = some n := by
  rw [functionOf.eq_def]
  rcases hf with hk | hk <;> simp only [hk]

theorem functionOf_enclosed (hk : isWrapper n.kind = true) :
    functionOf s n = n.children.head?.bind (functionOf s) := by
  rw [functionOf.eq_def]
  rcases Value.isWrapper_iff.mp hk with hk | hk <;> simp only [hk] <;>
    split <;> rename_i hc <;> rw [hc] <;> rfl

theorem functionOf_call (hk : n.kind = .call) :
    functionOf s n =
      if ((n.child? .function).map (·.text s)).any (wrappers.contains ·) then
        ((n.child? .arguments).bind (·.children.head?)).bind (functionOf s)
      else none := by
  rw [functionOf.eq_def]
  simp only [hk]
  congr 1
  split
  · rename_i args ha
    rw [ha, Option.bind_some]
    split <;> rename_i hc <;> rw [hc] <;> rfl
  · rename_i ha
    rw [ha]
    rfl

/-- A function is found in one of three ways. -/
theorem functionOf_cases (h : functionOf s n = some f) (hn : n.kind ≠ .functionDeclaration) :
    (IsFunction n ∧ f = n) ∨
    (isWrapper n.kind = true ∧ ∃ c, n.children.head? = some c ∧ functionOf s c = some f) ∨
    (n.kind = .call ∧ ∃ callee args c, n.child? .function = some callee ∧ callee.text s ∈ wrappers ∧
      n.child? .arguments = some args ∧ args.children.head? = some c ∧ functionOf s c = some f) := by
  by_cases hf : IsFunction n
  · rw [functionOf_function hf] at h
    exact Or.inl ⟨hf, (Option.some.inj h).symm⟩
  by_cases hw : isWrapper n.kind = true
  · rw [functionOf_enclosed hw] at h
    exact Or.inr (Or.inl ⟨hw, Option.bind_eq_some_iff.mp h⟩)
  by_cases hk : n.kind = .call
  · rw [functionOf_call hk] at h
    split_ifs at h with hany
    obtain ⟨name, hname, hmem⟩ := (Option.any_eq_true _ _).mp hany
    obtain ⟨callee, hcallee, rfl⟩ := Option.map_eq_some_iff.mp hname
    obtain ⟨c, hc, h⟩ := Option.bind_eq_some_iff.mp h
    obtain ⟨args, hargs, hc⟩ := Option.bind_eq_some_iff.mp hc
    exact Or.inr (Or.inr ⟨hk, callee, args, c, hcallee, List.contains_iff_mem.mp hmem, hargs, hc, h⟩)
  · rw [Value.isWrapper_iff, not_or] at hw
    rw [IsFunction, not_or] at hf
    rw [functionOf.eq_def] at h
    split at h <;> simp_all

theorem Wraps.of_functionOf (hfree : CommentFree v) (hv : IsExpression v)
    (h : functionOf s v = some f) : Wraps s f v := by
  -- The induction is on all that is nested, since the first argument of a call is no child of it.
  induction v using Node.nested_induction with
  | h v ih =>
    rcases functionOf_cases h hv.isValue with ⟨hf, rfl⟩ | ⟨hk, c, hc, h⟩ |
      ⟨hk, callee, args, c, hcallee, hname, hargs, hc, h⟩
    · exact .function hf
    · have hmem : c ∈ v.children := List.mem_of_head? hc
      have hholds : holdsExpressions v.kind = true := by simp [holdsExpressions, hk]
      have hinner : operand v = some c := (operand_eq_head? hfree).trans hc
      refine .enclosed hk hinner (ih c ⟨c, hmem, .root⟩ ?_ (hv.part .root hholds hmem) h)
      exact commentFree_of_occursIn hfree (.child hmem .root)
    · have hocc : args.OccursIn v := occursIn_of_child? hargs
      have hmem : c ∈ args.children := List.mem_of_head? hc
      rcases hv.arguments v .root hk args hargs with hlist | hparts
      · have hholds : holdsExpressions args.kind = true := by simp [holdsExpressions, hlist]
        have hfirst : operand args = some c :=
          (operand_eq_head? (commentFree_of_occursIn hfree hocc)).trans hc
        have hnested : c.NestedIn v :=
          ⟨args, List.mem_of_find?_eq_some hargs, .child hmem .root⟩
        refine .call hk hcallee hname hargs hlist hfirst (ih c hnested ?_ (hv.part hocc hholds hmem) h)
        exact commentFree_of_occursIn hfree (.trans (.child hmem .root) hocc)
      · -- The first part of a template is a substitution, in which no function is looked for.
        have hsub : c.kind = .substitution := hparts c hmem
        rw [functionOf.eq_def, hsub] at h
        cases h

theorem Wraps.functionOf_eq (hfree : CommentFree v) (h : Wraps s f v) : functionOf s v = some f := by
  induction h with
  | function hf => exact functionOf_function hf
  | enclosed hk hinner h ih =>
    have hocc := occursIn_of_operand hinner
    rw [operand_eq_head? hfree] at hinner
    rw [functionOf_enclosed hk, hinner, Option.bind_some]
    exact ih (commentFree_of_occursIn hfree hocc)
  | call hk hcallee hname hargs hlist hfirst h ih =>
    have hargsfree := commentFree_of_occursIn hfree (occursIn_of_child? hargs)
    have hocc := occursIn_of_operand hfirst
    rw [operand_eq_head? hargsfree] at hfirst
    have hwrapper : ((some _ : Option Node).map (·.text s)).any (wrappers.contains ·) = true :=
      List.contains_iff_mem.mpr hname
    rw [functionOf_call hk, hcallee, if_pos hwrapper, hargs, Option.bind_some, hfirst,
      Option.bind_some]
    exact ih (commentFree_of_occursIn hargsfree hocc)

/-- The function of a value is the one that the value wraps. -/
theorem functionOf_eq_some_iff (hfree : CommentFree v) (hv : IsExpression v) :
    functionOf s v = some f ↔ Wraps s f v :=
  ⟨Wraps.of_functionOf hfree hv, Wraps.functionOf_eq hfree⟩

/-- Neither a function that is an expression nor what is around it may declare a component itself. -/
theorem Wraps.not_isDeclaring (h : Wraps s f n) : ¬ IsDeclaring n := by
  rw [IsDeclaring]
  cases h with
  | function hf => rcases hf with hk | hk <;> simp [hk]
  | enclosed hk => rcases Value.isWrapper_iff.mp hk with hk | hk <;> simp [hk]
  | call hk => simp [hk]

theorem Wraps.isFunction (h : Wraps s f n) : IsFunction f := by
  induction h with
  | function hf => exact hf
  | enclosed _ _ _ ih => exact ih
  | call _ _ _ _ _ _ _ ih => exact ih

end Derivations

/-! ### Variables -/

/-- A variable called by a plain name, with its value. -/
structure Declarator (n name v : Node) : Prop where
  isVariable : n.kind = .variableDeclarator
  called : n.child? .name = some name
  plain : name.kind = .identifier
  bound : n.child? .value = some v

section Variables

variable {ctx : Context} {n name v f : Node}

theorem declarationAt?_declarator (hn : Declarator n name v) :
    declarationAt? ctx n =
      (functionOf ctx.source v).bind (declare ctx (name.text ctx.source) n) := by
  have hname : (n.child? .name).filter (fun m => m.kind == .identifier) = some name := by
    rw [hn.called, Option.filter_some, if_pos (beq_iff_eq.mpr hn.plain)]
  unfold declarationAt? visit
  simp only [hn.isVariable, hname, hn.bound, Option.bind_eq_bind, Option.bind_some]
  cases functionOf ctx.source v with
  | none => rfl
  | some function =>
    rw [Option.bind_some, Option.bind_some]
    cases declare ctx (name.text ctx.source) n function <;> rfl

theorem declarationAt?_of_function (hn : Declarator n name v)
    (hf : functionOf ctx.source v = some f)
    (hwanted : ctx.selection.admits (name.text ctx.source) = true) :
    declarationAt? ctx n = some (declaredAt ctx (name.text ctx.source) n f) := by
  rw [declarationAt?_declarator hn, hf, Option.bind_some, declare_eq, if_pos hwanted]

/-- The role of a function does not matter for its props. -/
theorem declaredProps_within (component : String) (function : Node) (g : Syntax.Field) :
    declaredProps ctx component (function.within g) = declaredProps ctx component function := rfl

end Variables

/-- A declaration carries the name and the place of a variable, and the props and the interface that a
variable of this name bound to the function alone has. -/
structure DeclaredBy (ctx : Context) (n name f : Node) (d : Declaration) : Prop where
  component : d.component = name.text ctx.source
  line : d.line = (n.location ctx.source).line
  column : d.column = (n.location ctx.source).column
  bare : ∀ m name', Declarator m name' (f.within .value) →
    name'.text ctx.source = name.text ctx.source →
      ∃ d', declarationAt? ctx m = some d' ∧ d'.component = d.component ∧ d'.props = d.props ∧
        d'.interface = d.interface

theorem declaredBy_declaredAt {ctx : Context} {n name f : Node} (hf : IsFunction f)
    (hwanted : ctx.selection.admits (name.text ctx.source) = true) :
    DeclaredBy ctx n name f (declaredAt ctx (name.text ctx.source) n f) := by
  refine ⟨rfl, rfl, rfl, ?_⟩
  intro m name' hm hname
  have hbare : functionOf ctx.source (f.within .value) = some (f.within .value) :=
    functionOf_function hf
  have hfound := declarationAt?_of_function hm hbare (hname ▸ hwanted)
  refine ⟨_, hfound, hname, ?_, ?_⟩
  · exact (declaredProps_within _ f .value).trans (congrArg (declaredProps ctx · f) hname)
  · exact congrArg (fun component => (ctx.interfaces.get? component).map (·.name)) hname

/-- A variable whose value wraps a function gives one declaration, which stands among those of the
other nodes of the tree; neither the function nor anything around it gives another one. A variable with
another value gives none. -/
theorem extract_through_wrappers (s : Source) (file : String) (root : Node) (o : Selection)
    (supplied : Option (Table String PropsInterface)) {n name v : Node} {before after : List Node}
    (htree : root.preorder = before ++ n :: after) (hn : Declarator n name v)
    (hfree : CommentFree v) (hv : IsExpression v) (hwanted : o.admits (name.text s) = true) :
    (∀ f, functionOf s v = some f ↔ Wraps s f v) ∧
    (∀ f, Wraps s f v → (∃ d, DeclaredBy (contextOf s file root o supplied) n name f d ∧
        (extract s file root o supplied).declarations =
          before.filterMap (declarationAt? (contextOf s file root o supplied)) ++
            d :: after.filterMap (declarationAt? (contextOf s file root o supplied))) ∧
      ∀ m, Wraps s f m → declarationAt? (contextOf s file root o supplied) m = none) ∧
    ((∀ f, ¬ Wraps s f v) →
      (extract s file root o supplied).declarations =
        before.filterMap (declarationAt? (contextOf s file root o supplied)) ++
          after.filterMap (declarationAt? (contextOf s file root o supplied))) := by
  let ctx := contextOf s file root o supplied
  have hall : (extract s file root o supplied).declarations =
      before.filterMap (declarationAt? ctx) ++ (n :: after).filterMap (declarationAt? ctx) := by
    rw [declarations_extract, htree, List.filterMap_append]
  have hiff (f : Node) : functionOf s v = some f ↔ Wraps s f v := functionOf_eq_some_iff hfree hv
  refine ⟨hiff, ?_, ?_⟩
  · intro f hf
    refine ⟨⟨declaredAt ctx (name.text s) n f, declaredBy_declaredAt hf.isFunction hwanted, ?_⟩, ?_⟩
    · have hfound : declarationAt? ctx n = some (declaredAt ctx (name.text s) n f) :=
        declarationAt?_of_function hn ((hiff f).mpr hf) hwanted
      rw [hall, List.filterMap_cons_some hfound]
    · -- Only declarations and variables are asked for what they declare.
      intro m hm
      cases hd : declarationAt? ctx m with
      | none => rfl
      | some d => exact absurd (isDeclaring_of_declarationAt? hd) hm.not_isDeclaring
  · intro hno
    have hnone : functionOf s v = none := by
      rw [Option.eq_none_iff_forall_ne_some]
      exact fun f hf => hno f ((hiff f).mp hf)
    have hnothing : declarationAt? ctx n = none := by
      rw [declarationAt?_declarator hn]
      exact congrArg (Option.bind · _) hnone
    rw [hall, List.filterMap_cons_none hnothing]

/-- A function in two wrappers, with a mark, parentheses and a type between them. -/
def wrappedComponent : Source :=
  Source.ofList "const N = memo((React.forwardRef((\x7b a, ...r \x7d) => a) as T)!, same);".toList

theorem extract_through_wrappers_nested :
    ∃ root n name v f, Syntax.parse .tsx wrappedComponent = some root ∧ n ∈ root.preorder ∧
      Declarator n name v ∧ Wraps wrappedComponent f v ∧ f.kind = .arrowFunction ∧
      ∃ d ∈ (extract wrappedComponent "f" root {} none).declarations,
        d.component = "N" ∧ d.line = 1 ∧ d.column = 6 := by
  have hparse : (Syntax.parse .tsx wrappedComponent).any (fun root => root.preorder.any (fun n =>
      (n.child? .name).any (fun name => (n.child? .value).any (fun v =>
        decide (n.kind = .variableDeclarator ∧ name.kind = .identifier ∧
          (∀ m ∈ v.preorder, m.kind ≠ .comment) ∧ IsExpression v ∧
          name.text wrappedComponent = "N" ∧ (n.location wrappedComponent).line = 1 ∧
          (n.location wrappedComponent).column = 6 ∧
          (functionOf wrappedComponent v).any (·.kind = .arrowFunction) = true))))) = true := by
    decide +kernel
  obtain ⟨root, hroot, h⟩ := (Option.any_eq_true _ _).mp hparse
  obtain ⟨n, hmem, h⟩ := List.any_eq_true.mp h
  obtain ⟨name, hname, h⟩ := (Option.any_eq_true _ _).mp h
  obtain ⟨v, hvalue, h⟩ := (Option.any_eq_true _ _).mp h
  obtain ⟨hkind, hplain, hfree, hv, htext, hline, hcolumn, hany⟩ := of_decide_eq_true h
  obtain ⟨f, hf, harrow⟩ := (Option.any_eq_true _ _).mp hany
  obtain ⟨before, after, htree⟩ := List.append_of_mem hmem
  have hn : Declarator n name v := ⟨hkind, hname, hplain, hvalue⟩
  obtain ⟨hiff, hfound, _⟩ := extract_through_wrappers wrappedComponent "f" root {} none htree hn
    (Value.commentFree_of_preorder hfree) hv rfl
  have hwraps := (hiff f).mp hf
  obtain ⟨⟨d, hdeclared, hd⟩, _⟩ := hfound f hwraps
  refine ⟨root, n, name, v, f, hroot, hmem, hn, hwraps, of_decide_eq_true harrow, d, ?_, ?_, ?_, ?_⟩
  · rw [hd]
    exact List.mem_append_right _ List.mem_cons_self
  · exact hdeclared.component.trans htext
  · exact hdeclared.line.trans (congrArg Int.ofNat hline)
  · exact hdeclared.column.trans (congrArg Int.ofNat hcolumn)

end PropAtlas.Component
