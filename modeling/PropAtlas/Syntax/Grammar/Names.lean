import PropAtlas.Syntax.Parser

/-!
Names and small pieces that many constructs share: the name of a member, an annotation after a
colon, the elements of a template, and lists in angle brackets.
-/

namespace PropAtlas.Syntax.Grammar

open PropAtlas.Syntax.Parser

/-- A private name, such as `#count`. -/
def privateName : Parser Node := do
  let start ← here
  expectChar '#'
  match ← peekScan Scan.name? with
  | some stop =>
    advance stop
    node .other start []
  | none => failure

def atMemberName : Parser Bool := do
  match ← peekChar with
  | some c =>
    return c == '"' || c == '\'' || c == '[' || c == '#' || c.isDigit || (← atName)
  | none => return false

def memberName (rules : Rules) : Parser Node := do
  let start ← here
  match ← peekChar with
  | some '"' | some '\'' => leaf .string Scan.string?
  | some '[' =>
    expectChar '['
    let inner ← rules (.expression false false)
    expectChar ']'
    node .other start [inner]
  | some '#' => privateName
  | some c =>
    if c.isDigit || c == '.' then leaf .number Scan.number? else nameLeaf .propertyName
  | none => failure

def annotation (rules : Rules) : Parser Node := do
  let start ← here
  expect ":"
  let t ← rules (.type false)
  return (← node .other start [t]).within .type

def annotation? (rules : Rules) : Parser (List Node) := do
  if ← atPunct ":" then return [← annotation rules] else return []

/-- Items in angle brackets, of which there is at least one. -/
def angleList (item : Parser Node) : Parser Node := do
  let start ← here
  expectChar '<'
  let first ← item
  let others ← many do
    if ← eat "," then
      if ← atChar '>' then return none else return some (← item)
    else return none
  expectChar '>'
  node .other start (first :: others)

def typeParameters? (rules : Rules) : Parser (List Node) := do
  if ← atChar '<' then return [← rules .typeParameters] else return []

/-- One step through a template: its text up to the next substitution, and the substitution. -/
def templateStep (inner : Parser Node) : Parser (Option Node) := do
  let s := (← read).source
  let start ← last
  match Scan.templateText? s (s.size - start + 1) start with
  | none => failure
  | some stop =>
    jump stop
    if s.hasAt stop ['$'] then
      jump (stop + 2)
      let e ← inner
      expectChar '}'
      return some (← node .substitution stop [e])
    else
      jump (stop + 1)
      return none

/-- A template whose substitutions are read by `inner`. -/
def templateOf (kind : Kind) (inner : Parser Node) : Parser Node := do
  let start ← here
  expectChar '\x60'
  let parts ← many (templateStep inner)
  node kind start parts

end PropAtlas.Syntax.Grammar
