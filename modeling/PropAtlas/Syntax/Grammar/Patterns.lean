import PropAtlas.Syntax.Grammar.Names

/-!
Binding patterns and parameters.
-/

namespace PropAtlas.Syntax.Grammar

open PropAtlas.Syntax.Parser

def initializer? (rules : Rules) (noIn : Bool) : Parser (List Node) := do
  if ← eat "=" then return [← rules (.expression noIn false)] else return []

/-- A pattern that stands for everything not named beside it. -/
def restPattern (rules : Rules) : Parser Node := do
  let start ← here
  expect "..."
  let inner ← rules .pattern
  node .restPattern start [inner]

def patternEntry (rules : Rules) : Parser Node := do
  let start ← here
  if ← atPunct "..." then restPattern rules
  else
    let key ← memberName rules
    if ← eat ":" then
      let value ← rules .pattern
      let default ← initializer? rules false
      node .pairPattern start (key.within .key :: value :: default)
    else if key.kind != .propertyName then failure
    else
      let short := Node.mk .shorthandPattern none key.span []
      if ← eat "=" then
        let default ← rules (.expression false false)
        node .defaultPattern start [short.within .left, default]
      else return short

/-- One element of an array pattern; a place may be left empty. -/
def patternElement (rules : Rules) : Parser (List Node) := do
  if ← atPunct "," then return []
  else
    let value ← rules .pattern
    return value :: (← initializer? rules false)

def patternRule (rules : Rules) : Parser Node := do
  let start ← here
  match ← peekChar with
  | some '{' =>
    expectChar '{'
    let entries ← commaList "\x7d" (patternEntry rules)
    expectChar '}'
    node .objectPattern start entries
  | some '[' =>
    expectChar '['
    let elements ← commaList "]" (patternElement rules)
    expectChar ']'
    node .other start elements.flatten
  | some '.' => restPattern rules
  | _ => if ← atWord "this" then nameLeaf .keyword else nameLeaf .identifier

/-- A decorator such as `@input` or `@column(name)`. -/
def decorator (rules : Rules) : Parser Node := do
  let start ← here
  expectChar '@'
  let target ← rules (.operation 20 false false)
  node .other start [target]

def decorators (rules : Rules) : Parser (List Node) :=
  many do
    if ← atChar '@' then return some (← decorator rules) else return none

def isParameterModifier (w : String) : Bool :=
  ["public", "private", "protected", "readonly", "override"].contains w

def parameter (rules : Rules) : Parser Node := do
  let start ← here
  let marks ← decorators rules
  let _ ← many do
    let binds : Parser Bool := return (← atName) || (← atPunct "\x7b") || (← atPunct "[")
    if isParameterModifier (← word) && (← wordThen binds) then return some (← nameLeaf .other)
    else return none
  let bound ← rules .pattern
  let _ ← eat "?"
  let ann ← annotation? rules
  let default ← initializer? rules false
  node .parameter start (marks ++ [bound.within .pattern] ++ ann ++ default)

def parametersRule (rules : Rules) : Parser Node := do
  let start ← here
  expect "("
  let ps ← commaList ")" (parameter rules)
  expect ")"
  node .other start ps

end PropAtlas.Syntax.Grammar
