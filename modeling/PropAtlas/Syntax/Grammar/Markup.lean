import PropAtlas.Syntax.Grammar.Names

/-!
Elements. Between tags everything up to the next tag or brace is text, and the names of an opening
and a closing tag need not agree.
-/

namespace PropAtlas.Syntax.Grammar

open PropAtlas.Syntax.Parser

/-- A braced expression, a spread, or nothing between braces. -/
def container (rules : Rules) : Parser Node := do
  let start ← here
  expectChar '{'
  if ← eatChar '}' then node .container start []
  else if ← atPunct "..." then
    let inner ← here
    expect "..."
    let e ← rules (.expression false false)
    let spread ← node .spread inner [e]
    expectChar '}'
    node .container start [spread]
  else
    let e ← rules .sequence
    expectChar '}'
    node .container start [e]

def tagWord (kind : Kind) : Parser Node := do
  let start ← here
  let w ← leaf kind Scan.tagName?
  if ← eatChar ':' then
    let _ ← leaf kind Scan.tagName?
    node .other start []
  else return w

/-- The name of an element: a name, a dotted path or a name in a namespace. -/
def elementName : Parser Node := do
  let start ← here
  let base ← tagWord .identifier
  fold base fun object => do
    if ← eatChar '.' then
      let property ← nameLeaf .propertyName
      return some (← node .member start [object.within .object, property.within .property])
    else return none

def tagAttribute (rules : Rules) : Parser Node := do
  let start ← here
  let name ← tagWord .propertyName
  if ← eatChar '=' then
    let value ← match ← peekChar with
      | some '{' => container rules
      | some '<' => rules .element
      | _ => leaf .string Scan.markupString?
    node .attribute start [name, value]
  else node .attribute start [name]

def attributes (rules : Rules) : Parser (List Node) :=
  many do
    if ← atChar '{' then return some (← container rules)
    else if (← peekScan Scan.tagName?).isSome then return some (← tagAttribute rules)
    else return none

def content (rules : Rules) : Parser (List Node) := do
  let parts ← many do
    let s := (← read).source
    let start ← last
    match Scan.markupText? s (s.size - start) start with
    | none => failure
    | some stop =>
      jump stop
      if s.hasAt stop ['<', '/'] then return none
      else if s.hasAt stop ['<'] then return some (← rules .element)
      else if s.hasAt stop ['{'] then return some (← container rules)
      else failure
  return parts

/-- The content and closing tag after an opening tag. -/
def closeElement (rules : Rules) (start : Nat) (opening : Node) : Parser Node := do
  let inner ← content rules
  let tagStart ← here
  advance (tagStart + 2)
  let name ← if ← atChar '>' then pure [] else pure [← elementName]
  expectChar '>'
  let closing ← node .other tagStart name
  node .element start (opening.within .openTag :: inner ++ [closing])

def elementRule (rules : Rules) : Parser Node := do
  let start ← here
  expectChar '<'
  if ← eatChar '>' then
    let opening ← node .openingTag start []
    closeElement rules start opening
  else
    let name ← elementName
    let typeArgs ← if ← atChar '<' then pure [← rules .typeArguments] else pure []
    let attrs ← attributes rules
    let parts := name.within .name :: typeArgs ++ attrs
    if (← read).source.hasAt (← here) ['/', '>'] then
      advance ((← here) + 2)
      node .selfClosingElement start parts
    else
      expectChar '>'
      let opening ← node .openingTag start parts
      closeElement rules start opening

end PropAtlas.Syntax.Grammar
