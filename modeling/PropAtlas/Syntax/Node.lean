import PropAtlas.Source

/-!
Syntax trees of JSX and TypeScript sources. A node has a kind, the role it plays in its parent, the
span of source it covers and its children in source order. Only the kinds that some analysis tells
apart have a name; every other construct is `other`, and is still a node of the tree, so that a walk
reaches what is inside it. Comments are nodes too, and stand between the tokens they separate.
-/

namespace PropAtlas.Syntax

inductive Kind where
  | comment
  | identifier | shorthandName | propertyName | typeName | keyword
  | number | string | template | substitution
  | object | array | spread
  | member | subscript | call | argumentList
  | parenthesized | wrapped | unary | operator
  | arrowFunction | functionExpression | functionDeclaration
  | parameter | variableDeclarator
  | objectPattern | shorthandPattern | pairPattern | defaultPattern | restPattern
  | interfaceDeclaration | typeAlias | propertySignature
  | element | openingTag | selfClosingElement | attribute | container
  | other
  deriving DecidableEq, Repr

/-- The role that a node plays in its parent. -/
inductive Field where
  | name | body | value | type
  | parameter | parameters | pattern
  | key | left
  | object | property | index
  | function | arguments
  | operator | argument
  | openTag
  deriving DecidableEq, Repr

/-- The stretch of source from offset `start` up to `stop`. -/
structure Span where
  start : Nat
  stop : Nat
  deriving DecidableEq, Repr

inductive Node where
  | mk (kind : Kind) (field : Option Field) (span : Span) (children : List Node)

namespace Node

def kind : Node → Kind
  | mk k _ _ _ => k

def field : Node → Option Field
  | mk _ f _ _ => f

def span : Node → Span
  | mk _ _ s _ => s

def children : Node → List Node
  | mk _ _ _ cs => cs

/-- The node in the role `f`. -/
def within (n : Node) (f : Field) : Node :=
  mk n.kind (some f) n.span n.children

def child? (n : Node) (f : Field) : Option Node :=
  n.children.find? (fun c => c.field == some f)

def text (n : Node) (s : Source) : String :=
  s.text n.span.start n.span.stop

def location (n : Node) (s : Source) : Location :=
  s.location n.span.start

mutual

/-- The node and all below it in document order, followed by `rest`. -/
def preorderOnto : Node → List Node → List Node
  | n@(mk _ _ _ cs), rest => n :: forestOnto cs rest

def forestOnto : List Node → List Node → List Node
  | [], rest => rest
  | c :: cs, rest => c.preorderOnto (forestOnto cs rest)

end

/-- The node and all below it, each before its children, siblings from left to right. -/
def preorder (n : Node) : List Node :=
  n.preorderOnto []

theorem sizeOf_append (ns ms : List Node) : sizeOf (ns ++ ms) + 1 = sizeOf ns + sizeOf ms := by
  induction ns with
  | nil =>
    simp only [List.nil_append, List.nil.sizeOf_spec]
    omega
  | cons n ns ih =>
    simp only [List.cons_append, List.cons.sizeOf_spec]
    omega

/-- The nodes that are met when the node on top of a stack is taken off and its children are put there
instead, the first one on top, until the stack is empty. -/
def walkFrom : (stack : List Node) → List Node
  | [] => []
  | mk kind field span children :: stack =>
    mk kind field span children :: walkFrom (children ++ stack)
termination_by stack => sizeOf stack
decreasing_by
  have := sizeOf_append children stack
  simp only [List.cons.sizeOf_spec, mk.sizeOf_spec]
  omega

def walk (n : Node) : List Node := walkFrom [n]

end Node

end PropAtlas.Syntax
