import PropAtlas.Syntax.Grammar.Expressions

/-!
The members of a class.
-/

namespace PropAtlas.Syntax.Grammar

open PropAtlas.Syntax.Parser

def isMemberModifier (w : String) : Bool :=
  ["public", "private", "protected", "static", "abstract", "override", "readonly", "declare",
    "accessor", "async", "get", "set"].contains w

/-- The modifiers of a member; a modifier's word that nothing nameable follows is itself a name. -/
def memberModifiers : Parser Unit := do
  let _ ← many do
    let named : Parser Bool := return (← atMemberName) || (← atPunct "*")
    if isMemberModifier (← word) && (← wordThen named) then
      let _ ← nameLeaf .other
      return some ()
    else if ← eat "*" then return some ()
    else return none

def fieldRest (rules : Rules) : Parser (List Node) := do
  let ann ← annotation? rules
  let value ← initializer? rules false
  semicolon
  return ann ++ value

/-- One member of a class: a method, with or without a body, a field, an index signature or a static
block. -/
def classMember (rules : Rules) : Parser Node := do
  let start ← here
  let marks ← decorators rules
  if (← atWord "static") && (← wordThen (atPunct "\x7b")) then
    expectWord "static"
    let body ← rules .block
    node .other start [body]
  else
    memberModifiers
    let index : Parser Unit := do
      expectChar '['
      let _ ← nameLeaf .other
      expect ":"
    if (← look index).isSome then
      let m ← indexMember rules start
      semicolon
      return m
    else
      let name ← memberName rules
      let _ ← eat "?"
      let _ ← eat "!"
      if (← atPunct "(") || (← atChar '<') then
        let head ← signature rules
        if ← atPunct "\x7b" then
          let body ← rules .block
          node .other start (marks ++ [name.within .name] ++ head ++ [body.within .body])
        else
          let _ ← eat ","
          semicolon
          node .other start (marks ++ [name.within .name] ++ head)
      else
        let parts ← fieldRest rules
        node .other start (marks ++ [name.within .name] ++ parts)

def classBodyRule (rules : Rules) : Parser Node := do
  let start ← here
  expectChar '{'
  let members ← many do
    if ← atPunct "\x7d" then return none
    else if ← eat ";" then return some []
    else return some [← classMember rules]
  expectChar '}'
  node .other start members.flatten

end PropAtlas.Syntax.Grammar
