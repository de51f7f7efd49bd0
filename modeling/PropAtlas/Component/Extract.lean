import PropAtlas.Component.Interface
import PropAtlas.Value.Render

/-!
The components of a tree. A walk in document order meets declarations, which are named functions and
variables bound to functions, and elements; each gives one finding, and a file's analysis is made of
the findings.
-/

namespace PropAtlas.Component

open PropAtlas.Syntax (Node Kind Field)

/-- What to keep of a file: one component or all, one prop or all, and types or none. -/
structure Selection where
  component : Option Text := none
  prop : Option Text := none
  types : Bool := true
  deriving DecidableEq, Repr

namespace Selection

def wantsProp (o : Selection) (name : String) : Bool :=
  match o.prop with
  | some p => Text.ofString name == p
  | none => true

/-- The component asked for; an empty name asks for none in particular. -/
def target? (o : Selection) : Option Text :=
  o.component.filter (fun c => !c.isEmpty)

end Selection

structure Context where
  source : Source
  file : String
  selection : Selection
  interfaces : Table String PropsInterface

inductive Finding where
  | declaration (d : Declaration)
  | site (s : Site)
  deriving DecidableEq, Repr

/-! ### Functions -/

/-- Calls that make a component of the function in them. -/
def wrappers : List String := ["memo", "forwardRef", "React.memo", "React.forwardRef"]

theorem sizeOf_head? {n c : Node} (h : n.children.head? = some c) : sizeOf c < sizeOf n := by
  cases n with
  | mk k g s cs =>
    have hm : c ∈ cs := List.mem_of_head? h
    have := List.sizeOf_lt_of_mem hm
    simp only [Node.mk.sizeOf_spec]
    omega

/-- The function that a value is, seen through parentheses, type annotations and wrapper calls. -/
def functionOf (s : Source) (n : Node) : Option Node :=
  match n.kind with
  | .functionDeclaration | .arrowFunction | .functionExpression => some n
  | .parenthesized | .wrapped =>
    match h : n.children.head? with
    | some c =>
      have := sizeOf_head? h
      functionOf s c
    | none => none
  | .call =>
    if ((n.child? .function).map (·.text s)).any (wrappers.contains ·) then
      match ha : n.child? .arguments with
      | some args =>
        match hc : args.children.head? with
        | some c =>
          have := Value.sizeOf_child? ha
          have := sizeOf_head? hc
          functionOf s c
        | none => none
      | none => none
    else none
  | _ => none
termination_by sizeOf n

-- A default value is part of the parameter it belongs to, so no parameter is itself a pattern with a
-- default.
def firstParameter (function : Node) : Option Node :=
  match function.child? .parameter with
  | some p => some p
  | none =>
    match (function.child? .parameters).bind
        (fun ps => ps.children.find? (fun c => c.kind != .comment)) with
    | some p => if p.kind = .parameter then p.child? .pattern else some p
    | none => none

/-! ### Declared props -/

/-- The name that an entry of an object pattern binds a prop by, and whether it binds all the rest. -/
def patternProp (s : Source) (entry : Node) : Option (String × Bool) :=
  match entry.kind with
  | .restPattern => some (restProp, true)
  | .shorthandPattern => some (entry.text s, false)
  | .pairPattern => some (((entry.child? .key).map (fun k => bareName (k.text s))).getD "", false)
  | .defaultPattern => some (((entry.child? .left).map (·.text s)).getD "", false)
  | _ => none

def Context.types (ctx : Context) (component : String) : Table String String :=
  ((ctx.interfaces.get? component).map (·.types)).getD []

def Context.usageAt (ctx : Context) (n : Node) (component name : String) : PropUsage :=
  let l := n.location ctx.source
  { name, component, file := ctx.file, line := l.line, column := l.column }

def patternProps (ctx : Context) (component : String) (pattern : Node) : List PropUsage :=
  pattern.children.filterMap (fun entry => do
    let (name, rest) ← patternProp ctx.source entry
    if name.isEmpty || !ctx.selection.wantsProp name then none
    else
      let usage := ctx.usageAt entry component name
      some { usage with
        spread := rest
        type := if rest then none else (ctx.types component).get? name })

/-- The property that a node reads from the value called `subject`. -/
def accessed? (s : Source) (subject : String) (n : Node) : Option String := do
  if n.kind != .member then none
  let object ← n.child? .object
  let property ← n.child? .property
  if object.kind == .identifier && object.text s == subject && property.kind == .propertyName then
    some (property.text s)
  else none

def firstOfEach (usages : List PropUsage) (seen : List String) : List PropUsage :=
  match usages with
  | [] => []
  | u :: rest =>
    if seen.contains u.name then firstOfEach rest seen
    else u :: firstOfEach rest (u.name :: seen)

/-- Props that a function's body reads from its parameter, each where it is read first. -/
def accessProps (ctx : Context) (component subject : String) (body : Node) : List PropUsage :=
  let all := body.walk.filterMap (fun n => do
    let name ← accessed? ctx.source subject n
    if ctx.selection.wantsProp name then
      some { ctx.usageAt n component name with type := (ctx.types component).get? name }
    else none)
  firstOfEach all []

def declaredProps (ctx : Context) (component : String) (function : Node) : List PropUsage :=
  match firstParameter function with
  | some p =>
    match p.kind with
    | .objectPattern => patternProps ctx component p
    | .identifier =>
      ((function.child? .body).map (accessProps ctx component (p.text ctx.source))).getD []
    | _ => []
  | none => []

/-- The declaration of a component by a function, unless another one is asked for. -/
def declare (ctx : Context) (component : String) (place function : Node) : Option Declaration :=
  if ctx.selection.target?.any (· != Text.ofString component) then none
  else
    let l := place.location ctx.source
    some {
      component, file := ctx.file, line := l.line, column := l.column
      props := declaredProps ctx component function
      interface := (ctx.interfaces.get? component).map (·.name) }

/-! ### Elements -/

/-- The full and the local name of an element. Names in a namespace name no component. -/
def elementNames (s : Source) (name : Node) : Option (String × String) :=
  match name.kind with
  | .identifier => some (name.text s, name.text s)
  | .member =>
    let full := (name.text s).toList.filter (fun c => !Blank.isBlank c)
    let localPart := (full.reverse.takeWhile (· != '.')).reverse
    some (String.ofList full, String.ofList localPart)
  | _ => none

def attributeUsage (ctx : Context) (component : String) (n : Node) : Option PropUsage :=
  match n.kind with
  | .attribute =>
    match n.children with
    | [] => none
    | name :: rest =>
      some { ctx.usageAt n component (name.text ctx.source) with
        value := rest.head?.bind (Value.attributeText ctx.source) }
  | .container =>
    if n.children.any (·.kind = .spread) then
      some { ctx.usageAt n component spreadProp with spread := true }
    else none
  | _ => none

def siteOf (ctx : Context) (element tag : Node) : Option Site := do
  let (component, localName) ← (tag.child? .name).bind (elementNames ctx.source)
  if ctx.selection.target?.any
      (fun t => t != Text.ofString component && t != Text.ofString localName) then none
  else
    let l := element.location ctx.source
    some {
      component, localName, file := ctx.file, line := l.line, column := l.column
      props := (tag.children.filter (fun c => c.field != some .name)).filterMap
        (attributeUsage ctx component) }

/-! ### Findings -/

-- An element always has an opening tag, in its own role; there is no need to look for one among the
-- children.
def visit (ctx : Context) (n : Node) : Option Finding :=
  match n.kind with
  | .functionDeclaration => do
    let name ← n.child? .name
    (declare ctx (name.text ctx.source) n n).map .declaration
  | .variableDeclarator => do
    let name ← (n.child? .name).filter (fun m => m.kind == .identifier)
    let function ← (n.child? .value).bind (functionOf ctx.source)
    (declare ctx (name.text ctx.source) n function).map .declaration
  | .element => do
    let tag ← n.child? .openTag
    (siteOf ctx n tag).map .site
  | .selfClosingElement => (siteOf ctx n n).map .site
  | _ => none

def Finding.declaration? : Finding → Option Declaration
  | .declaration d => some d
  | .site _ => none

def Finding.site? : Finding → Option Site
  | .declaration _ => none
  | .site s => some s

/-- The usages that a finding adds: all props of a declaration, and those of a site that are asked
for. -/
def Finding.usages (o : Selection) : Finding → List PropUsage
  | .declaration d => d.props
  | .site s => s.props.filter (fun p => o.wantsProp p.name)

def findings (ctx : Context) (root : Node) : List Finding :=
  root.walk.filterMap (visit ctx)

/-- The analysis of a tree. The interfaces are those of the tree unless others are supplied, and none
when types are not asked for. -/
def extract (s : Source) (file : String) (root : Node) (o : Selection)
    (supplied : Option (Table String PropsInterface)) : FileAnalysis :=
  let table := if o.types then supplied.getD (interfaces s root) else []
  let found := findings ⟨s, file, o, table⟩ root
  { file
    declarations := found.filterMap Finding.declaration?
    usages := found.flatMap (Finding.usages o)
    sites := found.filterMap Finding.site?
    interfaces := table }

end PropAtlas.Component
