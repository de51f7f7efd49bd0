import PropAtlas.Component.Basic
import PropAtlas.Syntax.Node
import PropAtlas.Text.Blank

/-!
Interfaces and type aliases whose names end in `Props`: what they say about the props of a component.
An alias hides an interface of the same name, and a later type hides an earlier one.
-/

namespace PropAtlas.Component

open PropAtlas.Syntax (Node)

def propsSuffix : String := "Props"

/-- The component that a type of a given name describes. -/
def describedBy (typeName : String) : Option String :=
  let cs := typeName.toList
  let tail := propsSuffix.toList
  if cs.length > tail.length && tail.isSuffixOf cs then
    some (String.ofList (cs.take (cs.length - tail.length)))
  else none

def bareName (s : String) : String :=
  Blank.stripOf (fun c => c == '"' || c == '\'') s

/-- The type in an annotation; an empty one says nothing. -/
def annotatedType (text : String) : String :=
  let t := Blank.strip (String.ofList (text.toList.dropWhile (· == ':')))
  if t.isEmpty then "any" else t

def propertyType (s : Source) (member : Node) : Option (String × String) :=
  if member.kind = .propertySignature then
    (member.child? .name).map (fun name =>
      (bareName (name.text s), ((member.child? .type).map (fun t => annotatedType (t.text s))).getD
        "any"))
  else none

def propertyTypes (s : Source) (body : Node) : Table String String :=
  Table.ofList (body.children.filterMap (propertyType s))

def interfaceOf (s : Source) (name body : Option Node) : Option (String × PropsInterface) := do
  let n ← name.filter (fun n => n.kind == .typeName)
  let b ← body
  let component ← describedBy (n.text s)
  return (component, ⟨n.text s, component, propertyTypes s b⟩)

/-- The props interfaces of a tree by component. -/
def interfaces (s : Source) (root : Node) : Table String PropsInterface :=
  let nodes := root.preorder
  let declared := (nodes.filter (·.kind = .interfaceDeclaration)).filterMap (fun n =>
    interfaceOf s (n.child? .name) (n.child? .body))
  let aliases := (nodes.filter (·.kind = .typeAlias)).filterMap (fun n =>
    interfaceOf s (n.child? .name) (n.child? .value))
  Table.ofList (declared ++ aliases)

end PropAtlas.Component
