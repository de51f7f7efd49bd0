import PropAtlas.Syntax.Grammar.Names

/-!
Types. Their inner structure is kept only as far as it can hold expressions: queries such as
`typeof p.kind`, computed member names and default values. Members of an object type that give a
property and its type are nodes of their own.
-/

namespace PropAtlas.Syntax.Grammar

open PropAtlas.Syntax.Parser

/-- A node over one or more parts; a single part stands for itself. -/
def groupOf (start : Nat) (parts : List Node) : Parser Node :=
  match parts with
  | [part] => return part
  | _ => node .other start parts

/-- What a function type or annotation gives back: a type, or a claim about a parameter as in
`x is T` and `asserts x`. -/
def resultType (rules : Rules) : Parser Node := do
  let start ← here
  let asserts ← wordThen (return !(← newline) && (← atName) && !(← atWord "is"))
  if (← atWord "asserts") && asserts then
    expectWord "asserts"
    let subject ← nameLeaf .other
    if (← atWord "is") && !(← newline) then
      expectWord "is"
      let t ← rules (.type false)
      node .other start [subject, t]
    else node .other start [subject]
  else if (← atName) && (← wordThen (return !(← newline) && (← atWord "is"))) then
    let subject ← nameLeaf .other
    expectWord "is"
    let t ← rules (.type false)
    node .other start [subject, t]
  else rules (.type false)

def returnType? (rules : Rules) : Parser (List Node) := do
  if ← atPunct ":" then
    let start ← here
    expect ":"
    let t ← resultType rules
    return [← node .other start [t]]
  else return []

def functionTypeHead (rules : Rules) : Parser (List Node) := do
  let generics ← typeParameters? rules
  let ps ← rules .parameters
  expect "=>"
  return generics ++ [ps]

def functionType (rules : Rules) (start : Nat) : Parser Node := do
  let head ← functionTypeHead rules
  let result ← resultType rules
  node .other start (head ++ [result])

def tupleElement (rules : Rules) : Parser Node := do
  let start ← here
  let _ ← eat "..."
  let label : Parser Unit := do
    let _ ← nameLeaf .other
    let _ ← eat "?"
    expect ":"
  let _ ← attempt label
  let _ ← eat "..."
  let t ← rules (.type false)
  let _ ← eat "?"
  node .other start [t]

/-- A reference into another module, such as `import('x').Name`. -/
def importType (rules : Rules) : Parser Node := do
  let start ← here
  expectWord "import"
  expect "("
  let args ← commaList ")" (rules (.type false))
  expect ")"
  let _ ← many do
    if ← eat "." then return some (← nameLeaf .other) else return none
  let typeArgs ← if !(← newline) && (← atChar '<') then
      pure [← rules .typeArguments]
    else pure []
  node .other start (args ++ typeArgs)

/-- What a type query asks about: a name and a path from it. -/
def queried (rules : Rules) : Parser Node := do
  let start ← here
  if ← atWord "import" then importType rules
  else
    let base ← if ← atWord "this" then nameLeaf .keyword else nameLeaf .identifier
    fold base fun object => do
      if (← eat ".") || (← eat "?.") then
        let property ← if ← atChar '#' then privateName else nameLeaf .propertyName
        return some (← node .member start [object.within .object, property.within .property])
      else if (← newline) then return none
      else if ← atChar '<' then
        let typeArgs ← rules .typeArguments
        return some (← node .other start [object, typeArgs])
      else return none

/-- A type that is neither a union nor an operator applied to another. -/
def primaryType (rules : Rules) : Parser Node := do
  let start ← here
  match ← peekChar with
  | some '(' =>
    expectChar '('
    let t ← rules (.type false)
    expectChar ')'
    node .other start [t]
  | some '[' =>
    expectChar '['
    let parts ← commaList "]" (tupleElement rules)
    expectChar ']'
    node .other start parts
  | some '{' => rules .objectType
  | some '"' | some '\'' => leaf .other Scan.string?
  | some '\x60' => templateOf .other (rules (.type false))
  | some '-' =>
    expectChar '-'
    leaf .other Scan.number?
  | some c =>
    if c.isDigit || c == '.' then leaf .other Scan.number?
    else if ← atWord "typeof" then
      expectWord "typeof"
      let q ← queried rules
      node .other start [q]
    else if ← atWord "import" then importType rules
    else
      let _ ← nameLeaf .typeName
      let _ ← many do
        if ← eat "." then return some (← nameLeaf .typeName) else return none
      if !(← newline) && (← atChar '<') then
        let typeArgs ← rules .typeArguments
        node .other start [typeArgs]
      else node .other start []
  | none => failure

/-- A type with array brackets or an index after it. -/
def postfixType (rules : Rules) : Parser Node := do
  let start ← here
  let base ← primaryType rules
  fold base fun t => do
    if !(← newline) && (← atPunct "[") then
      expectChar '['
      if ← eatChar ']' then return some (← node .other start [t])
      else
        let index ← rules (.type false)
        expectChar ']'
        return some (← node .other start [t, index])
    else return none

def operatorType (rules : Rules) (noConditional : Bool) : Parser Node := do
  let start ← here
  let w ← word
  if w == "keyof" || w == "unique" || w == "readonly" then
    expectWord w
    let t ← rules (.type true)
    node .other start [t]
  else if w == "infer" then
    expectWord "infer"
    let _ ← nameLeaf .typeName
    let bound : Parser Node := do
      expectWord "extends"
      let t ← rules (.type true)
      if !noConditional && (← atPunct "?") then failure
      return t
    node .other start (← attempt bound).toList
  else if w == "abstract" && (← wordThen (atWord "new")) then
    expectWord "abstract"
    expectWord "new"
    functionType rules start
  else if w == "new" then
    expectWord "new"
    functionType rules start
  else if ← atChar '<' then functionType rules start
  else if ← atChar '(' then
    match ← attempt (functionTypeHead rules) with
    | some head =>
      let result ← resultType rules
      node .other start (head ++ [result])
    | none => postfixType rules
  else postfixType rules

def intersectionType (rules : Rules) (noConditional : Bool) : Parser Node := do
  let start ← here
  let _ ← eat "&"
  groupOf start (← sepBy "&" (operatorType rules noConditional))

def unionType (rules : Rules) (noConditional : Bool) : Parser Node := do
  let start ← here
  let _ ← eat "|"
  groupOf start (← sepBy "|" (intersectionType rules noConditional))

def typeRule (rules : Rules) (noConditional : Bool) : Parser Node := do
  let start ← here
  let t ← unionType rules noConditional
  if !noConditional && !(← newline) && (← atWord "extends") then
    expectWord "extends"
    let bound ← rules (.type true)
    expect "?"
    let yes ← rules (.type false)
    expect ":"
    let no ← rules (.type false)
    node .other start [t, bound, yes, no]
  else return t

def typeArgumentsRule (rules : Rules) : Parser Node :=
  angleList (rules (.type false))

def typeParameter (rules : Rules) : Parser Node := do
  let start ← here
  let _ ← many do
    let w ← word
    if (w == "const" || w == "in" || w == "out") && (← wordThen atName) then
      return some (← nameLeaf .other)
    else return none
  let _ ← nameLeaf .typeName
  let bound ← if ← eatWord "extends" then pure [← rules (.type false)] else pure []
  let default ← if ← eat "=" then pure [← rules (.type false)] else pure []
  node .other start (bound ++ default)

def typeParametersRule (rules : Rules) : Parser Node :=
  angleList (typeParameter rules)

def signature (rules : Rules) : Parser (List Node) := do
  let generics ← typeParameters? rules
  let ps ← rules .parameters
  let result ← returnType? rules
  return generics ++ [ps] ++ result

def isTypeModifier (w : String) : Bool :=
  ["readonly", "static", "public", "private", "protected", "override", "declare", "abstract", "get",
    "set"].contains w

/-- An index signature or a mapped type, from its bracket on. -/
def indexMember (rules : Rules) (start : Nat) : Parser Node := do
  expectChar '['
  let _ ← nameLeaf .other
  let key ← if ← eatWord "in" then rules (.type false) else do
    expect ":"
    rules (.type false)
  let renamed ← if ← eatWord "as" then pure [← rules (.type false)] else pure []
  expectChar ']'
  let _ ← eat "+"
  let _ ← eat "-"
  let _ ← eat "?"
  let ann ← annotation? rules
  node .other start (key :: renamed ++ ann)

def typeMember (rules : Rules) : Parser Node := do
  let start ← here
  if (← atPunct "(") || (← atChar '<') then node .other start (← signature rules)
  else if (← atWord "new") && (← wordThen (return (← atPunct "(") || (← atChar '<'))) then
    expectWord "new"
    node .other start (← signature rules)
  else
    let _ ← many do
      if (← atPunct "+") || (← atPunct "-") then
        advance ((← here) + 1)
        return some ()
      else if isTypeModifier (← word) && (← wordThen atMemberName) then
        let _ ← nameLeaf .other
        return some ()
      else return none
    let index : Parser Unit := do
      expectChar '['
      let _ ← nameLeaf .other
      if (← atPunct ":") || (← atWord "in") then pure () else failure
    if (← look index).isSome then indexMember rules start
    else
      let name ← memberName rules
      let _ ← eat "?"
      if (← atPunct "(") || (← atChar '<') then
        node .other start (name.within .name :: (← signature rules))
      else
        node .propertySignature start (name.within .name :: (← annotation? rules))

def objectTypeRule (rules : Rules) : Parser Node := do
  let start ← here
  expectChar '{'
  let members ← many do
    if ← atPunct "\x7d" then return none
    else
      let m ← typeMember rules
      if (← eat ",") || (← eat ";") then pure ()
      else if (← newline) || (← atPunct "\x7d") then pure ()
      else failure
      return some m
  expectChar '}'
  node .other start members

end PropAtlas.Syntax.Grammar
