import PropAtlas.Value.Render

/-! The text of an expression by recursion: it is made of the texts of its parts. -/

namespace PropAtlas.Value

open PropAtlas (Source Text)
open PropAtlas.Syntax (Node Kind Field)

/-- What a wrapper or a substitution is around. Comments do not count. -/
def operand (n : Node) : Option Node := n.children.find? (fun c => c.kind != .comment)

mutual

/-- The text of an expression, made of the texts of its parts. -/
def textOf (s : Source) : Node → Option Text
  | n@(.mk kind _ span cs) =>
    match kind with
    | .string => some (stringText s n)
    | .number | .keyword | .identifier | .shorthandName => some (nodeText s n)
    | .arrowFunction | .functionExpression => some functionPlaceholder
    | .object => some objectPlaceholder
    | .array => some arrayPlaceholder
    | .member => do
      let object ← textIn s .object cs
      let property ← n.child? .property
      return object ++ Text.ofString "." ++ nodeText s property
    | .subscript => do
      let object ← textIn s .object cs
      let index ← textIn s .index cs
      return object ++ Text.ofString "[" ++ index ++ Text.ofString "]"
    | .call => do
      let function ← textIn s .function cs
      return function ++ Text.ofString "()"
    | .unary => do
      let operator ← n.child? .operator
      let argument ← textIn s .argument cs
      return operatorText (nodeText s operator) ++ argument
    | .parenthesized | .wrapped => operandText s cs
    | .template => foldedText s span.stop (span.start + 1) cs
    | _ => none

/-- The text of the first node in a role. -/
def textIn (s : Source) (f : Field) : List Node → Option Text
  | [] => none
  | c :: cs => if c.field = some f then textOf s c else textIn s f cs

/-- The text of the first node that is not a comment. -/
def operandText (s : Source) : List Node → Option Text
  | [] => none
  | c :: cs => if c.kind = .comment then operandText s cs else textOf s c

/-- The text of a template from offset `start` to its closing backtick before `stop`. -/
def foldedText (s : Source) (stop start : Nat) : List Node → Option Text
  | [] => some (Escape.cook (sourceText s start (max (stop - 1) start)))
  | .mk kind _ span inner :: cs =>
    if kind = .substitution then do
      let shown ← operandText s inner
      let others ← foldedText s stop span.stop cs
      return Escape.cook (sourceText s start span.start) ++ shown ++ others
    else foldedText s stop start cs

end

theorem textIn_eq (s : Source) (f : Field) (cs : List Node) :
    textIn s f cs = (cs.find? (fun c => c.field == some f)).bind (textOf s) := by
  induction cs with
  | nil => rfl
  | cons c cs ih =>
    rw [textIn, List.find?_cons]
    by_cases hc : c.field = some f
    · simp [hc]
    · have hfield : (c.field == some f) = false := by simpa using hc
      rw [if_neg hc, ih, hfield]

theorem operandText_eq (s : Source) (cs : List Node) :
    operandText s cs = (cs.find? (fun c => c.kind != .comment)).bind (textOf s) := by
  induction cs with
  | nil => rfl
  | cons c cs ih =>
    rw [operandText, List.find?_cons]
    by_cases hc : c.kind = .comment
    · rw [if_pos hc, ih, hc]
      rfl
    · have hkind : (c.kind != .comment) = true := by simpa using hc
      rw [if_neg hc, hkind]
      rfl

variable {s : Source} {n : Node}

/-- A link adds its own text to the text of what it is attached to. -/
theorem textOf_link {f : Field} (hf : linkField n.kind = some f) :
    textOf s n = ((n.child? f).bind (textOf s)).bind
      (fun t => (linkText s (textOf s) n).map (t ++ ·)) := by
  obtain ⟨kind, field, span, cs⟩ := n
  cases kind with
  | member =>
    cases hf
    rw [textOf, textIn_eq]
    change _ = ((cs.find? (fun c => c.field == some .object)).bind (textOf s)).bind _
    cases (cs.find? (fun c => c.field == some .object)).bind (textOf s) with
    | none => rfl
    | some t =>
      simp only [linkText, Node.kind]
      cases (Node.mk .member field span cs).child? .property with
      | none => rfl
      | some p => simp
  | subscript =>
    cases hf
    rw [textOf, textIn_eq, textIn_eq]
    change _ = ((cs.find? (fun c => c.field == some .object)).bind (textOf s)).bind _
    cases (cs.find? (fun c => c.field == some .object)).bind (textOf s) with
    | none => rfl
    | some t =>
      simp only [linkText, Node.kind, Node.child?, Node.children]
      cases cs.find? (fun c => c.field == some .index) with
      | none => rfl
      | some i =>
        cases hi : textOf s i with
        | none => simp [hi]
        | some u => simp [hi]
  | call =>
    cases hf
    rw [textOf, textIn_eq]
    rfl
  | _ => cases hf

theorem textOf_unary (hk : n.kind = .unary) :
    textOf s n = (n.child? .operator).bind (fun operator =>
      ((n.child? .argument).bind (textOf s)).map (operatorText (nodeText s operator) ++ ·)) := by
  obtain ⟨kind, field, span, cs⟩ := n
  cases hk
  rw [textOf, textIn_eq]
  cases (Node.mk .unary field span cs).child? .operator with
  | none => rfl
  | some operator =>
    simp only [Node.child?, Node.children]
    cases (cs.find? (fun c => c.field == some .argument)).bind (textOf s) <;> rfl

theorem textOf_wrapper (hk : n.kind = .parenthesized ∨ n.kind = .wrapped) :
    textOf s n = (operand n).bind (textOf s) := by
  obtain ⟨kind, field, span, cs⟩ := n
  rcases hk with hk | hk
  · cases hk
    rw [textOf, operandText_eq]
    rfl
  · cases hk
    rw [textOf, operandText_eq]
    rfl

theorem textOf_template (hk : n.kind = .template) :
    textOf s n = foldedText s n.span.stop (n.span.start + 1) n.children := by
  obtain ⟨kind, field, span, cs⟩ := n
  cases hk
  rw [textOf]
  rfl

theorem foldedText_substitution {c : Node} (hc : c.kind = .substitution) (stop start : Nat)
    (cs : List Node) :
    foldedText s stop start (c :: cs) = ((operand c).bind (textOf s)).bind
      (fun shown => (foldedText s stop c.span.stop cs).map
        (Escape.cook (sourceText s start c.span.start) ++ shown ++ ·)) := by
  obtain ⟨kind, field, span, inner⟩ := c
  cases hc
  rw [foldedText, if_pos rfl, operandText_eq]
  simp only [Option.bind_eq_bind, Option.map_eq_bind]
  rfl

theorem foldedText_other {c : Node} (hc : c.kind ≠ .substitution) (stop start : Nat)
    (cs : List Node) : foldedText s stop start (c :: cs) = foldedText s stop start cs := by
  obtain ⟨kind, field, span, inner⟩ := c
  rw [foldedText]
  exact if_neg hc

theorem templateText_substitution {c : Node} (hc : c.kind = .substitution)
    (show? : Node → Option Text) (stop start : Nat) (cs : List Node) :
    templateText s show? start stop (c :: cs) = (c.children.head?.bind show?).bind
      (fun shown => (templateText s show? c.span.stop stop cs).map
        (Escape.cook (sourceText s start c.span.start) ++ shown ++ ·)) := by
  rw [templateText, if_pos hc]
  simp only [Option.bind_eq_bind, Option.map_eq_bind]
  rfl

end PropAtlas.Value
