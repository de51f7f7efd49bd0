import PropAtlas.Proofs.Value.Recursion

/-!
Expressions that differ only in what does not show: wrappers around any of their parts, the arguments of
calls, the insides of functions, objects and arrays, and how a link is written.

Main statement: such expressions have the same value, or both have none.
-/

namespace PropAtlas.Value

open PropAtlas (Source Text)
open PropAtlas.Syntax (Node Kind Field)

/-- The characters of a node. -/
def words (s : Source) (n : Node) : List Char := s.slice n.span.start n.span.stop

def isWrapper (k : Kind) : Bool :=
  match k with
  | .parenthesized | .wrapped => true
  | _ => false

/-- Whether an expression is shown by its own characters. -/
def isWritten (k : Kind) : Bool :=
  match k with
  | .string | .number | .keyword | .identifier | .shorthandName => true
  | _ => false

/-- Whether an expression is shown by a placeholder. -/
def isAbridged (k : Kind) : Bool :=
  match k with
  | .arrowFunction | .functionExpression | .object | .array => true
  | _ => false

def substitutions (n : Node) : List Node := n.children.filter (fun c => c.kind == .substitution)

/-- The characters of a template from an offset on: those before each substitution, and those after the
last one. -/
def gapsFrom (s : Source) (stop start : Nat) : List Node → List (List Char)
  | [] => [s.slice start (max (stop - 1) start)]
  | c :: cs => s.slice start c.span.start :: gapsFrom s stop c.span.stop cs

def gaps (s : Source) (n : Node) : List (List Char) :=
  gapsFrom s n.span.stop (n.span.start + 1) (substitutions n)

/-- Whether two expressions, each of its own source, differ only in what does not show. -/
inductive Alike (s₁ s₂ : Source) : Node → Node → Prop where
  | wrapperLeft {n₁ n₂ o₁ : Node} (hk : isWrapper n₁.kind = true) (ho : operand n₁ = some o₁)
      (h : Alike s₁ s₂ o₁ n₂) : Alike s₁ s₂ n₁ n₂
  | wrapperRight {n₁ n₂ o₂ : Node} (hk : isWrapper n₂.kind = true) (ho : operand n₂ = some o₂)
      (h : Alike s₁ s₂ n₁ o₂) : Alike s₁ s₂ n₁ n₂
  | written {n₁ n₂ : Node} (hk : isWritten n₁.kind = true) (hkind : n₁.kind = n₂.kind)
      (hwords : words s₁ n₁ = words s₂ n₂) : Alike s₁ s₂ n₁ n₂
  | abridged {n₁ n₂ : Node} (hk : isAbridged n₁.kind = true) (hkind : n₁.kind = n₂.kind) :
      Alike s₁ s₂ n₁ n₂
  | member {n₁ n₂ o₁ o₂ p₁ p₂ : Node} (hk₁ : n₁.kind = .member) (hk₂ : n₂.kind = .member)
      (ho₁ : n₁.child? .object = some o₁) (ho₂ : n₂.child? .object = some o₂)
      (hp₁ : n₁.child? .property = some p₁) (hp₂ : n₂.child? .property = some p₂)
      (hwords : words s₁ p₁ = words s₂ p₂) (ho : Alike s₁ s₂ o₁ o₂) : Alike s₁ s₂ n₁ n₂
  | subscript {n₁ n₂ o₁ o₂ i₁ i₂ : Node} (hk₁ : n₁.kind = .subscript) (hk₂ : n₂.kind = .subscript)
      (ho₁ : n₁.child? .object = some o₁) (ho₂ : n₂.child? .object = some o₂)
      (hi₁ : n₁.child? .index = some i₁) (hi₂ : n₂.child? .index = some i₂)
      (ho : Alike s₁ s₂ o₁ o₂) (hi : Alike s₁ s₂ i₁ i₂) : Alike s₁ s₂ n₁ n₂
  | call {n₁ n₂ f₁ f₂ : Node} (hk₁ : n₁.kind = .call) (hk₂ : n₂.kind = .call)
      (hf₁ : n₁.child? .function = some f₁) (hf₂ : n₂.child? .function = some f₂)
      (hf : Alike s₁ s₂ f₁ f₂) : Alike s₁ s₂ n₁ n₂
  | unary {n₁ n₂ p₁ p₂ a₁ a₂ : Node} (hk₁ : n₁.kind = .unary) (hk₂ : n₂.kind = .unary)
      (hp₁ : n₁.child? .operator = some p₁) (hp₂ : n₂.child? .operator = some p₂)
      (ha₁ : n₁.child? .argument = some a₁) (ha₂ : n₂.child? .argument = some a₂)
      (hwords : words s₁ p₁ = words s₂ p₂) (ha : Alike s₁ s₂ a₁ a₂) : Alike s₁ s₂ n₁ n₂
  | template {n₁ n₂ : Node} {inner₁ inner₂ : List Node}
      (hk₁ : n₁.kind = .template) (hk₂ : n₂.kind = .template)
      (hi₁ : (substitutions n₁).map operand = inner₁.map some)
      (hi₂ : (substitutions n₂).map operand = inner₂.map some)
      (hgaps : gaps s₁ n₁ = gaps s₂ n₂)
      (hi : ∀ p ∈ inner₁.zip inner₂, Alike s₁ s₂ p.1 p.2) : Alike s₁ s₂ n₁ n₂
  /-- Of a kind that is never shown, or with a part missing on both sides. -/
  | incomplete {n₁ n₂ : Node} (hkind : n₁.kind = n₂.kind) (h₁ : isComplete n₁ = false)
      (h₂ : isComplete n₂ = false) : Alike s₁ s₂ n₁ n₂

/-- Whether there is no comment anywhere in a tree. -/
def CommentFree (n : Node) : Prop := ∀ m : Node, m.OccursIn n → m.kind ≠ .comment

variable {s s₁ s₂ : Source} {n n₁ n₂ : Node}

theorem isWrapper_iff : isWrapper n.kind = true ↔ n.kind = .parenthesized ∨ n.kind = .wrapped := by
  cases n.kind <;> simp [isWrapper]

theorem nodeText_of_words (h : words s₁ n₁ = words s₂ n₂) : nodeText s₁ n₁ = nodeText s₂ n₂ :=
  congrArg Text.ofChars h

theorem textOf_of_wrapper {o : Node} (hk : isWrapper n.kind = true) (ho : operand n = some o) :
    textOf s n = textOf s o := by
  rw [textOf_wrapper (isWrapper_iff.mp hk), ho, Option.bind_some]

theorem textOf_of_incomplete (h : isComplete n = false) : textOf s n = none := by
  rw [← Option.isNone_iff_eq_none, ← Option.not_isSome, isSome_textOf, h]
  rfl

theorem textOf_written (hk : isWritten n₁.kind = true) (hkind : n₁.kind = n₂.kind)
    (hwords : words s₁ n₁ = words s₂ n₂) : textOf s₁ n₁ = textOf s₂ n₂ := by
  have hnode : nodeText s₁ n₁ = nodeText s₂ n₂ := nodeText_of_words hwords
  have hstring : stringText s₁ n₁ = stringText s₂ n₂ :=
    congrArg (fun cs => Text.ofChars (unquote cs)) hwords
  obtain ⟨kind, field₁, span₁, cs₁⟩ := n₁
  obtain ⟨kind₂, field₂, span₂, cs₂⟩ := n₂
  obtain rfl : kind = kind₂ := hkind
  rw [textOf.eq_def, textOf.eq_def]
  cases kind with
  | string => exact congrArg some hstring
  | number | keyword | identifier | shorthandName => exact congrArg some hnode
  | _ => cases hk

theorem textOf_abridged (hk : isAbridged n₁.kind = true) (hkind : n₁.kind = n₂.kind) :
    textOf s₁ n₁ = textOf s₂ n₂ := by
  obtain ⟨kind, field₁, span₁, cs₁⟩ := n₁
  obtain ⟨kind₂, field₂, span₂, cs₂⟩ := n₂
  obtain rfl : kind = kind₂ := hkind
  rw [textOf.eq_def, textOf.eq_def]
  cases kind with
  | arrowFunction | functionExpression | object | array => rfl
  | _ => cases hk

/-! ### Templates -/

theorem foldedText_substitutions (stop start : Nat) (cs : List Node) :
    foldedText s stop start cs =
      foldedText s stop start (cs.filter (fun c => c.kind == .substitution)) := by
  induction cs generalizing start with
  | nil => rfl
  | cons c cs ih =>
    by_cases hc : c.kind = .substitution
    · rw [List.filter_cons_of_pos (by simpa using hc), foldedText_substitution hc,
        foldedText_substitution hc, ih]
    · rw [List.filter_cons_of_neg (by simpa using hc), foldedText_other hc, ih]

theorem gapsFrom_ne_nil (stop start : Nat) (cs : List Node) : gapsFrom s stop start cs ≠ [] := by
  cases cs with
  | nil => exact List.cons_ne_nil _ _
  | cons c cs => exact List.cons_ne_nil _ _

theorem sourceText_of_slice {a₁ b₁ a₂ b₂ : Nat} (h : s₁.slice a₁ b₁ = s₂.slice a₂ b₂) :
    sourceText s₁ a₁ b₁ = sourceText s₂ a₂ b₂ :=
  congrArg Text.ofChars h

/-- Templates with the same characters around substitutions with the same texts have the same text. -/
theorem foldedText_of_gaps {stop₁ stop₂ : Nat} (cs₁ cs₂ inner₁ inner₂ : List Node)
    (hk₁ : ∀ c ∈ cs₁, c.kind = .substitution) (hk₂ : ∀ c ∈ cs₂, c.kind = .substitution)
    (hi₁ : cs₁.map operand = inner₁.map some) (hi₂ : cs₂.map operand = inner₂.map some)
    (start₁ start₂ : Nat) (hgaps : gapsFrom s₁ stop₁ start₁ cs₁ = gapsFrom s₂ stop₂ start₂ cs₂)
    (htext : ∀ p ∈ inner₁.zip inner₂, textOf s₁ p.1 = textOf s₂ p.2) :
    foldedText s₁ stop₁ start₁ cs₁ = foldedText s₂ stop₂ start₂ cs₂ := by
  -- The two templates lose their first substitutions together: the numbers of gaps agree.
  induction cs₁ generalizing cs₂ inner₁ inner₂ start₁ start₂ with
  | nil =>
    cases cs₂ with
    | nil =>
      have hlast := sourceText_of_slice (List.head_eq_of_cons_eq hgaps)
      rw [foldedText, foldedText, hlast]
    | cons c₂ cs₂ =>
      have hrest := List.tail_eq_of_cons_eq hgaps
      exact absurd hrest.symm (gapsFrom_ne_nil _ _ _)
  | cons c₁ cs₁ ih =>
    cases cs₂ with
    | nil =>
      have hrest := List.tail_eq_of_cons_eq hgaps
      exact absurd hrest (gapsFrom_ne_nil _ _ _)
    | cons c₂ cs₂ =>
      obtain ⟨o₁, os₁, rfl, ho₁, hos₁⟩ := List.map_eq_cons_iff.mp hi₁.symm
      obtain ⟨o₂, os₂, rfl, ho₂, hos₂⟩ := List.map_eq_cons_iff.mp hi₂.symm
      obtain ⟨hc₁, hcs₁⟩ := List.forall_mem_cons.mp hk₁
      obtain ⟨hc₂, hcs₂⟩ := List.forall_mem_cons.mp hk₂
      rw [List.zip_cons_cons] at htext
      obtain ⟨hfirst, hothers⟩ := List.forall_mem_cons.mp htext
      have hgap := sourceText_of_slice (List.head_eq_of_cons_eq hgaps)
      have hrest := ih cs₂ os₁ os₂ hcs₁ hcs₂ hos₁.symm hos₂.symm _ _
        (List.tail_eq_of_cons_eq hgaps) hothers
      rw [foldedText_substitution hc₁, foldedText_substitution hc₂, ← ho₁, ← ho₂, hgap, hrest,
        Option.bind_some, Option.bind_some, hfirst]

/-! ### Equal texts -/

theorem textOf_of_alike (h : Alike s₁ s₂ n₁ n₂) : textOf s₁ n₁ = textOf s₂ n₂ := by
  -- A wrapper takes a step on one side only; the other steps are taken together.
  induction h with
  | wrapperLeft hk ho _ ih => rw [textOf_of_wrapper hk ho, ih]
  | wrapperRight hk ho _ ih => rw [textOf_of_wrapper hk ho, ih]
  | written hk hkind hwords => exact textOf_written hk hkind hwords
  | abridged hk hkind => exact textOf_abridged hk hkind
  | @member n₁ n₂ o₁ o₂ p₁ p₂ hk₁ hk₂ ho₁ ho₂ hp₁ hp₂ hwords _ ih =>
    have hf₁ : linkField n₁.kind = some .object := congrArg linkField hk₁
    have hf₂ : linkField n₂.kind = some .object := congrArg linkField hk₂
    have hlink : linkText s₁ (textOf s₁) n₁ = linkText s₂ (textOf s₂) n₂ := by
      simp only [linkText, hk₁, hk₂, hp₁, hp₂, Option.map_some, nodeText_of_words hwords]
    rw [textOf_link hf₁, textOf_link hf₂, ho₁, ho₂, hlink, Option.bind_some, Option.bind_some, ih]
  | @subscript n₁ n₂ o₁ o₂ i₁ i₂ hk₁ hk₂ ho₁ ho₂ hi₁ hi₂ _ _ iho ihi =>
    have hf₁ : linkField n₁.kind = some .object := congrArg linkField hk₁
    have hf₂ : linkField n₂.kind = some .object := congrArg linkField hk₂
    have hlink : linkText s₁ (textOf s₁) n₁ = linkText s₂ (textOf s₂) n₂ := by
      simp only [linkText, hk₁, hk₂, hi₁, hi₂, Option.bind_some, ihi]
    rw [textOf_link hf₁, textOf_link hf₂, ho₁, ho₂, hlink, Option.bind_some, Option.bind_some, iho]
  | @call n₁ n₂ f₁ f₂ hk₁ hk₂ hc₁ hc₂ _ ih =>
    have hf₁ : linkField n₁.kind = some .function := congrArg linkField hk₁
    have hf₂ : linkField n₂.kind = some .function := congrArg linkField hk₂
    have hlink : linkText s₁ (textOf s₁) n₁ = linkText s₂ (textOf s₂) n₂ := by
      simp only [linkText, hk₁, hk₂]
    rw [textOf_link hf₁, textOf_link hf₂, hc₁, hc₂, hlink, Option.bind_some, Option.bind_some, ih]
  | unary hk₁ hk₂ hp₁ hp₂ ha₁ ha₂ hwords _ ih =>
    rw [textOf_unary hk₁, textOf_unary hk₂, hp₁, hp₂, ha₁, ha₂]
    simp only [Option.bind_some, nodeText_of_words hwords, ih]
  | template hk₁ hk₂ hi₁ hi₂ hgaps _ ih =>
    rw [textOf_template hk₁, textOf_template hk₂, foldedText_substitutions,
      foldedText_substitutions (s := s₂)]
    apply foldedText_of_gaps _ _ _ _ _ _ hi₁ hi₂ _ _ hgaps ih
    · intro c hc
      simpa using (List.mem_filter.mp hc).2
    · intro c hc
      simpa using (List.mem_filter.mp hc).2
  | incomplete _ h₁ h₂ => rw [textOf_of_incomplete h₁, textOf_of_incomplete h₂]

theorem startsWithComment_of_commentFree (h : ∀ c ∈ n.children, c.kind ≠ .comment) :
    startsWithComment n = false := by
  unfold startsWithComment
  cases hc : n.children.head? with
  | none => rfl
  | some c => simpa using h c (List.mem_of_head? hc)

theorem isCommented_of_commentFree (h : CommentFree n) : isCommented n = false := by
  have hchildren : ∀ c ∈ n.children, c.kind ≠ .comment := fun c hc => h c (.child hc .root)
  unfold isCommented
  split
  · exact startsWithComment_of_commentFree hchildren
  · exact startsWithComment_of_commentFree hchildren
  · apply List.any_eq_false.mpr
    intro c hc
    have hinner : startsWithComment c = false := startsWithComment_of_commentFree
      (fun b hb => h b (.child hc (.child hb .root)))
    simp [hinner]
  · rfl

theorem uncommented_of_commentFree (h : CommentFree n) : Uncommented n := by
  intro m hm
  apply isCommented_of_commentFree
  intro b hb
  exact h b (hb.trans (occursIn_of_dependsOn hm))

theorem attributeText_container {v e : Node} (hv : v.kind = .container) (he : operand v = some e)
    (hd : Within nestingLimit e) (hc : CommentFree e) : attributeText s v = textOf s e := by
  have hattribute : attributeText s v = (operand v).bind (render s nestingLimit) := by
    simp only [attributeText, hv, operand]
  rw [hattribute, he, Option.bind_some]
  exact (render_guarded s nestingLimit e).eq ⟨hd, uncommented_of_commentFree hc⟩

/-- Values do not tell apart expressions that differ only in what does not show. -/
theorem attributeText_of_alike {v₁ v₂ e₁ e₂ : Node}
    (hv₁ : v₁.kind = .container) (hv₂ : v₂.kind = .container)
    (he₁ : operand v₁ = some e₁) (he₂ : operand v₂ = some e₂)
    (hc₁ : CommentFree e₁) (hc₂ : CommentFree e₂)
    (hd₁ : Within nestingLimit e₁) (hd₂ : Within nestingLimit e₂) (h : Alike s₁ s₂ e₁ e₂) :
    attributeText s₁ v₁ = attributeText s₂ v₂ ∧ attributeText s₁ v₁ = textOf s₁ e₁ := by
  have hleft : attributeText s₁ v₁ = textOf s₁ e₁ := attributeText_container hv₁ he₁ hd₁ hc₁
  have hright : attributeText s₂ v₂ = textOf s₂ e₂ := attributeText_container hv₂ he₂ hd₂ hc₂
  refine ⟨?_, hleft⟩
  calc attributeText s₁ v₁ = textOf s₁ e₁ := hleft
    _ = textOf s₂ e₂ := textOf_of_alike h
    _ = attributeText s₂ v₂ := hright.symm

def wrappedSource : Source := Source.ofList "{(x as T)?.y[!z](1)}".toList

/-- A call whose chain starts from a wrapped name, with an optional link. -/
def wrappedCall : Node :=
  .mk .call none ⟨1, 19⟩
    [.mk .subscript (some .function) ⟨1, 16⟩
      [.mk .member (some .object) ⟨1, 12⟩
        [.mk .parenthesized (some .object) ⟨1, 9⟩
          [.mk .wrapped none ⟨2, 8⟩ [.mk .identifier none ⟨2, 3⟩ [], .mk .other none ⟨7, 8⟩ []]],
        .mk .propertyName (some .property) ⟨11, 12⟩ []],
      .mk .unary (some .index) ⟨13, 15⟩
        [.mk .operator (some .operator) ⟨13, 14⟩ [],
        .mk .identifier (some .argument) ⟨14, 15⟩ []]],
    .mk .argumentList (some .arguments) ⟨16, 19⟩ [.mk .number none ⟨17, 18⟩ []]]

def wrappedValue : Node := .mk .container none ⟨0, 20⟩ [wrappedCall]

def plainSource : Source := Source.ofList "{x.y[(!z)](2)}".toList

/-- The same call with another argument, where the index is what is wrapped. -/
def plainCall : Node :=
  .mk .call none ⟨1, 13⟩
    [.mk .subscript (some .function) ⟨1, 10⟩
      [.mk .member (some .object) ⟨1, 4⟩
        [.mk .identifier (some .object) ⟨1, 2⟩ [],
        .mk .propertyName (some .property) ⟨3, 4⟩ []],
      .mk .parenthesized (some .index) ⟨5, 9⟩
        [.mk .unary none ⟨6, 8⟩
          [.mk .operator (some .operator) ⟨6, 7⟩ [],
          .mk .identifier (some .argument) ⟨7, 8⟩ []]]],
    .mk .argumentList (some .arguments) ⟨10, 13⟩ [.mk .number none ⟨11, 12⟩ []]]

def plainValue : Node := .mk .container none ⟨0, 14⟩ [plainCall]

theorem alike_calls : Alike wrappedSource plainSource wrappedCall plainCall := by
  refine .call rfl rfl rfl rfl (.subscript rfl rfl rfl rfl rfl rfl ?_ ?_)
  · refine .member rfl rfl rfl rfl rfl rfl (by decide) ?_
    refine .wrapperLeft rfl rfl (.wrapperLeft rfl rfl ?_)
    exact .written rfl rfl (by decide)
  · refine .wrapperRight rfl rfl (.unary rfl rfl rfl rfl rfl rfl (by decide) ?_)
    exact .written rfl rfl (by decide)

theorem commentFree_of_preorder (h : ∀ m ∈ n.preorder, m.kind ≠ .comment) : CommentFree n :=
  fun m hm => h m (Node.mem_preorder_iff.mpr hm)

theorem attributeText_of_alike_calls :
    Alike wrappedSource plainSource wrappedCall plainCall ∧
      attributeText wrappedSource wrappedValue = attributeText plainSource plainValue ∧
      attributeText wrappedSource wrappedValue = some (Text.ofString "x.y[!z]()") := by
  have htext : textOf wrappedSource wrappedCall = some (Text.ofString "x.y[!z]()") := by
    decide
  have hsame : attributeText wrappedSource wrappedValue = attributeText plainSource plainValue ∧
      attributeText wrappedSource wrappedValue = textOf wrappedSource wrappedCall := by
    apply attributeText_of_alike rfl rfl rfl rfl _ _ _ _ alike_calls
    · exact commentFree_of_preorder (by decide)
    · exact commentFree_of_preorder (by decide)
    · exact within_of_length (by decide)
    · exact within_of_length (by decide)
  exact ⟨alike_calls, hsame.1, hsame.2.trans htext⟩

end PropAtlas.Value
