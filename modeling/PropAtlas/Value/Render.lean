import PropAtlas.Syntax.Node
import PropAtlas.Value.Escape

/-!
Attribute values as text. Literals and names are shown as written, chains of members, indices and
calls link by link, templates with their escapes cooked, functions, objects and arrays as
placeholders. Type annotations and parentheses do not show. Whatever cannot be shown, or is nested too
deeply, has no text.
-/

namespace PropAtlas.Value

open PropAtlas (Source Text)
open PropAtlas.Syntax (Node Kind Field)

def functionPlaceholder : Text := Text.ofString "() => …"

def objectPlaceholder : Text := Text.ofString "\x7b...\x7d"

def arrayPlaceholder : Text := Text.ofString "[...]"

/-- How deeply a value may nest and still be shown. -/
def nestingLimit : Nat := 490

def isQuote (c : Char) : Bool := c == '"' || c == '\''

def unquote (cs : List Char) : List Char :=
  match cs with
  | q :: rest =>
    if isQuote q && rest.getLast? == some q then rest.dropLast else cs
  | [] => []

def sourceText (s : Source) (start stop : Nat) : Text :=
  Text.ofChars (s.slice start stop)

def nodeText (s : Source) (n : Node) : Text :=
  sourceText s n.span.start n.span.stop

def stringText (s : Source) (n : Node) : Text :=
  Text.ofChars (unquote (s.slice n.span.start n.span.stop))

/-- An operator, with a space after one that is a word. The only operators of the grammar that are words
are `typeof`, `void` and `delete`, so it is enough to know the ASCII letters. -/
def operatorText (t : Text) : Text :=
  let letter (p : CodePoint) : Bool :=
    (0x41 ≤ p.val && p.val ≤ 0x5A) || (0x61 ≤ p.val && p.val ≤ 0x7A)
  if !t.isEmpty && t.all letter then t ++ Text.ofString " " else t

/-! ### Chains -/

/-- The part of a chain that a link is attached to, by its role. -/
def linkField (k : Kind) : Option Field :=
  match k with
  | .member | .subscript => some .object
  | .call => some .function
  | _ => none

theorem sizeOf_child? {n c : Node} {f : Field} (h : n.child? f = some c) : sizeOf c < sizeOf n := by
  cases n with
  | mk k g s cs =>
    have hm : c ∈ cs := List.mem_of_find?_eq_some h
    have := List.sizeOf_lt_of_mem hm
    simp only [Node.mk.sizeOf_spec]
    omega

/-- The node that a chain starts from, `none` if it is missing, and the links in front of `links`,
the one next to it first. -/
def unroll (n : Node) (links : List Node) : Option Node × List Node :=
  match linkField n.kind with
  | none => (some n, links)
  | some f =>
    match h : n.child? f with
    | none => (none, n :: links)
    | some c =>
      have := sizeOf_child? h
      unroll c (n :: links)
termination_by sizeOf n

/-- What one link adds to the text of a chain, given how an index is shown. -/
def linkText (s : Source) (show? : Node → Option Text) (n : Node) : Option Text :=
  match n.kind with
  | .member => (n.child? .property).map (fun p => Text.ofString "." ++ nodeText s p)
  | .subscript =>
    (n.child? .index).bind (fun i => (show? i).map
      (fun t => Text.ofString "[" ++ t ++ Text.ofString "]"))
  | _ => some (Text.ofString "()")

def chainText (s : Source) (show? : Node → Option Text) (n : Node) : Option Text := do
  let (base, links) := unroll n []
  let start ← base.bind show?
  let rest ← links.mapM (linkText s show?)
  return start ++ rest.flatten

/-! ### Templates -/

/-- The text of a template from offset `start` to its closing backtick before `stop`, where the nodes
left to read hold the substitutions. -/
def templateText (s : Source) (show? : Node → Option Text) (start stop : Nat) :
    List Node → Option Text
  | [] => some (Escape.cook (sourceText s start (max (stop - 1) start)))
  | n :: rest =>
    if n.kind = .substitution then do
      let inner ← n.children.head?.bind show?
      let others ← templateText s show? n.span.stop stop rest
      return Escape.cook (sourceText s start n.span.start) ++ inner ++ others
    else templateText s show? start stop rest

/-! ### All expressions -/

/-- The text of an expression whose parts nest less than `depth` deep. -/
def render (s : Source) : (depth : Nat) → Node → Option Text
  | 0, _ => none
  | depth + 1, n =>
    match n.kind with
    | .string => some (stringText s n)
    | .number | .keyword | .identifier | .shorthandName => some (nodeText s n)
    | .member | .subscript | .call => chainText s (render s depth) n
    | .arrowFunction | .functionExpression => some functionPlaceholder
    | .template => templateText s (render s depth) (n.span.start + 1) n.span.stop n.children
    | .object => some objectPlaceholder
    | .array => some arrayPlaceholder
    | .parenthesized | .wrapped => n.children.head?.bind (render s depth)
    | .unary => do
      let operator ← n.child? .operator
      let argument ← (n.child? .argument).bind (render s depth)
      return operatorText (nodeText s operator) ++ argument
    | _ => none

/-- The text of what follows the equals sign of an attribute: a string, or the expression in braces.
Comments before the expression do not count. -/
def attributeText (s : Source) (n : Node) : Option Text :=
  match n.kind with
  | .string => some (stringText s n)
  | .container =>
    (n.children.find? (fun c => c.kind != .comment)).bind (render s nestingLimit)
  | _ => none

end PropAtlas.Value
