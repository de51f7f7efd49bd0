import PropAtlas.Syntax.Grammar.Classes

/-!
Statements and declarations.
-/

namespace PropAtlas.Syntax.Grammar

open PropAtlas.Syntax.Parser

def blockRule (rules : Rules) : Parser Node := do
  let start ← here
  expectChar '{'
  let body ← many do
    if ← atPunct "\x7d" then return none else return some (← rules .statement)
  expectChar '}'
  node .other start body

def condition (rules : Rules) : Parser Node := do
  let start ← here
  expect "("
  let e ← rules .sequence
  expect ")"
  node .parenthesized start [e]

/-! ### Variables and functions -/

def declarator (rules : Rules) (noIn : Bool) : Parser Node := do
  let start ← here
  let bound ← rules .pattern
  let _ ← eat "!"
  let ann ← annotation? rules
  let value ← initializer? rules noIn
  node .variableDeclarator start (bound.within .name :: ann ++ value.map (·.within .value))

def variableStatement (rules : Rules) : Parser Node := do
  let start ← here
  let _ ← nameLeaf .other
  let bindings ← sepBy "," (declarator rules false)
  semicolon
  node .other start bindings

/-- A named function; without a body it is only a signature. -/
def functionStatement (rules : Rules) : Parser Node := do
  let start ← here
  let f ← functionParts rules
  if !f.named then failure
  else if f.hasBody then node .functionDeclaration start f.parts
  else
    semicolon
    node .other start f.parts

def classStatement (rules : Rules) : Parser Node := do
  let start ← here
  let marks ← decorators rules
  let _ ← eatWord "abstract"
  let parts ← classParts rules
  node .other start (marks ++ parts)

/-! ### Control flow -/

def ifStatement (rules : Rules) : Parser Node := do
  let start ← here
  expectWord "if"
  let test ← condition rules
  let yes ← rules .statement
  let no ← if ← eatWord "else" then pure [← rules .statement] else pure []
  node .other start (test :: yes :: no)

/-- What a loop starts with: variables or expressions, in which `in` is not an operator. -/
def loopStart (rules : Rules) : Parser (List Node) := do
  let w ← word
  let binds : Parser Bool := return (← atName) || (← atPunct "\x7b") || (← atPunct "[")
  if (w == "var" || w == "let" || w == "const") && (← wordThen binds) then
    expectWord w
    sepBy "," (declarator rules true)
  else if ← atPunct ";" then return []
  else sepBy "," (rules (.expression true false))

/-- The rest of a counting loop's head, after what it starts with. -/
def loopRest (rules : Rules) : Parser (List Node) := do
  expect ";"
  let test ← if ← atPunct ";" then pure [] else pure [← rules .sequence]
  expect ";"
  let step ← if ← atPunct ")" then pure [] else pure [← rules .sequence]
  return test ++ step

def forStatement (rules : Rules) : Parser Node := do
  let start ← here
  expectWord "for"
  let _ ← eatWord "await"
  expect "("
  let first ← loopStart rules
  let rest ← if (← atWord "of") || (← atWord "in") then
      let _ ← nameLeaf .other
      pure [← rules .sequence]
    else loopRest rules
  expect ")"
  let body ← rules .statement
  node .other start (first ++ rest ++ [body])

def whileStatement (rules : Rules) : Parser Node := do
  let start ← here
  let _ ← nameLeaf .other
  let test ← condition rules
  let body ← rules .statement
  node .other start [test, body]

def doStatement (rules : Rules) : Parser Node := do
  let start ← here
  expectWord "do"
  let body ← rules .statement
  expectWord "while"
  let test ← condition rules
  let _ ← eat ";"
  node .other start [body, test]

def catchParameter (rules : Rules) : Parser (List Node) := do
  if ← eat "(" then
    let p ← rules .pattern
    let ann ← annotation? rules
    expect ")"
    return p :: ann
  else return []

def tryStatement (rules : Rules) : Parser Node := do
  let start ← here
  expectWord "try"
  let body ← rules .block
  let caught ← if ← eatWord "catch" then
      let p ← catchParameter rules
      pure (p ++ [← rules .block])
    else pure []
  let final ← if ← eatWord "finally" then pure [← rules .block] else pure []
  if caught.isEmpty && final.isEmpty then failure
  node .other start (body :: caught ++ final)

def switchCase (rules : Rules) : Parser Node := do
  let start ← here
  let test ← if ← eatWord "default" then pure [] else do
    expectWord "case"
    pure [← rules .sequence]
  expect ":"
  let body ← many do
    if (← atPunct "\x7d") || (← atWord "case") then return none
    else if (← atWord "default") && (← wordThen (atPunct ":")) then return none
    else return some (← rules .statement)
  node .other start (test ++ body)

def switchStatement (rules : Rules) : Parser Node := do
  let start ← here
  expectWord "switch"
  let test ← condition rules
  expectChar '{'
  let cases ← many do
    if ← atPunct "\x7d" then return none else return some (← switchCase rules)
  expectChar '}'
  node .other start (test :: cases)

/-- Characters before which a line break ends no statement. -/
def joinsLines (c : Char) : Bool :=
  "\x60,.;*%><=?^|&/:+-".toList.contains c

def throwStatement (rules : Rules) : Parser Node := do
  let start ← here
  expectWord "throw"
  let value ← rules .sequence
  semicolon
  node .other start [value]

/-- `return`, and a value unless the statement ends here. -/
def returnStatement (rules : Rules) : Parser Node := do
  let start ← here
  expectWord "return"
  let ends := (← atPunct ";") || (← atPunct "\x7d") || (← atEnd) ||
    ((← newline) && !(← peekChar).any joinsLines)
  let value ← if ends then pure [] else pure [← rules .sequence]
  semicolon
  node .other start value

def jumpStatement : Parser Node := do
  let start ← here
  let _ ← nameLeaf .other
  let label ← if (← atName) && !(← newline) then pure [← nameLeaf .other] else pure []
  semicolon
  node .other start label

/-! ### Types -/

def interfaceStatement (rules : Rules) : Parser Node := do
  let start ← here
  expectWord "interface"
  let name ← nameLeaf .typeName
  let generics ← typeParameters? rules
  let bases ← if ← eatWord "extends" then sepBy "," (rules (.type true)) else pure []
  let body ← rules .objectType
  node .interfaceDeclaration start
    (name.within .name :: generics ++ bases ++ [body.within .body])

def typeStatement (rules : Rules) : Parser Node := do
  let start ← here
  expectWord "type"
  let name ← nameLeaf .typeName
  let generics ← typeParameters? rules
  expect "="
  let value ← rules (.type false)
  semicolon
  node .typeAlias start (name.within .name :: generics ++ [value.within .value])

def enumMember (rules : Rules) : Parser Node := do
  let start ← here
  let name ← memberName rules
  let value ← initializer? rules false
  node .other start (name :: value)

def enumStatement (rules : Rules) : Parser Node := do
  let start ← here
  let _ ← eatWord "const"
  expectWord "enum"
  let _ ← nameLeaf .identifier
  expectChar '{'
  let members ← commaList "\x7d" (enumMember rules)
  expectChar '}'
  node .other start members

/-- A namespace or module; one that is only declared may have no body. -/
def namespaceStatement (rules : Rules) : Parser Node := do
  let start ← here
  let _ ← nameLeaf .other
  if (← atChar '"') || (← atChar '\'') then
    let _ ← leaf .string Scan.string?
  else
    let _ ← sepBy "." (nameLeaf .other)
  if ← atPunct "\x7b" then
    let body ← rules .block
    node .other start [body]
  else
    semicolon
    node .other start []

def declareStatement (rules : Rules) : Parser Node := do
  let start ← here
  expectWord "declare"
  if (← atWord "global") && (← wordThen (atPunct "\x7b")) then
    expectWord "global"
    let body ← rules .block
    node .other start [body]
  else
    let inner ← rules .statement
    node .other start [inner]

/-! ### Modules -/

/-- The name of something imported or exported, which may be a string. -/
def moduleWord : Parser Unit := do
  if (← atChar '"') || (← atChar '\'') then
    let _ ← leaf .string Scan.string?
  else
    let _ ← nameLeaf .other

/-- One name in braces, perhaps marked as a type and perhaps renamed. -/
def moduleItem : Parser Unit := do
  let typed : Parser Bool := return ((← atName) && !(← atWord "as")) || (← atChar '"') ||
    ((← atWord "as") && (← wordThen (atWord "as")))
  if ((← atWord "type") || (← atWord "typeof")) && (← wordThen typed) then
    let _ ← nameLeaf .other
  moduleWord
  if ← eatWord "as" then moduleWord

def moduleItems : Parser Unit := do
  expectChar '{'
  let _ ← commaList "\x7d" moduleItem
  expectChar '}'

/-- The module that names come from, with attributes if there are any. -/
def moduleSource (rules : Rules) : Parser (List Node) := do
  let _ ← leaf .string Scan.string?
  if ((← atWord "with") || (← atWord "assert")) && !(← newline) then
    let _ ← nameLeaf .other
    return [← object rules]
  else return []

def importClause : Parser Unit := do
  let rest : Parser Unit := do
    if ← eat "*" then
      expectWord "as"
      let _ ← nameLeaf .identifier
    else moduleItems
  if ← atName then
    let _ ← nameLeaf .identifier
    if ← eat "," then rest
  else rest
  expectWord "from"

/-- The right side of `import x = …`. -/
def importAlias (rules : Rules) : Parser (List Node) := do
  let _ ← nameLeaf .identifier
  expect "="
  if (← atWord "require") && (← wordThen (atPunct "(")) then
    return [← rules (.expression false false)]
  else
    let _ ← sepBy "." (nameLeaf .other)
    return []

def importStatement (rules : Rules) : Parser Node := do
  let start ← here
  expectWord "import"
  let parts ← if (← atChar '"') || (← atChar '\'') then moduleSource rules else do
    let typed : Parser Bool := return (← atPunct "\x7b") || (← atPunct "*") ||
      ((← atName) && (!(← atWord "from") || (← wordThen (atWord "from"))))
    if ((← atWord "type") || (← atWord "typeof")) && (← wordThen typed) then
      let _ ← nameLeaf .other
    if (← atName) && (← wordThen (atPunct "=")) then importAlias rules
    else
      importClause
      moduleSource rules
  semicolon
  node .other start parts

def exportDefault (rules : Rules) : Parser Node := do
  let w ← word
  let async ← wordThen (return !(← newline) && (← atWord "function"))
  if w == "function" || (w == "async" && async) then
    let start ← here
    let f ← functionParts rules
    if !f.hasBody then
      semicolon
      node .other start f.parts
    else node (if f.named then .functionDeclaration else .functionExpression) start f.parts
  else if w == "class" || (← atChar '@') || (w == "abstract" && (← wordThen (atWord "class"))) then
    classStatement rules
  else if w == "interface" && (← wordThen (return (← atName) && !(← newline))) then
    interfaceStatement rules
  else
    let e ← rules .sequence
    semicolon
    return e

/-- The module that names are exported again from, if one is named. -/
def exportSource? (rules : Rules) : Parser (List Node) := do
  let source ← if ← eatWord "from" then moduleSource rules else pure []
  semicolon
  return source

def exportStatement (rules : Rules) : Parser Node := do
  let start ← here
  expectWord "export"
  let typed : Parser Bool := return (← atPunct "\x7b") || (← atPunct "*")
  if (← atWord "type") && (← wordThen typed) then
    let _ ← nameLeaf .other
  if ← eatWord "default" then node .other start [← exportDefault rules]
  else if ← eat "*" then
    if ← eatWord "as" then moduleWord
    expectWord "from"
    let source ← moduleSource rules
    semicolon
    node .other start source
  else if ← atPunct "\x7b" then
    moduleItems
    node .other start (← exportSource? rules)
  else if ← eat "=" then
    let e ← rules .sequence
    semicolon
    node .other start [e]
  else if (← atWord "as") && (← wordThen (atWord "namespace")) then
    expectWord "as"
    expectWord "namespace"
    let _ ← nameLeaf .identifier
    semicolon
    node .other start []
  else node .other start [← rules .statement]

/-! ### All statements -/

def labeledStatement (rules : Rules) : Parser Node := do
  let start ← here
  let _ ← nameLeaf .other
  expect ":"
  let body ← rules .statement
  node .other start [body]

def expressionStatement (rules : Rules) : Parser Node := do
  let start ← here
  let e ← rules .sequence
  semicolon
  node .other start [e]

/-- A statement that starts with a name, by that name and what follows it. -/
def wordStatement (rules : Rules) (w : String) : Parser Node := do
  let namedHere : Parser Bool := return (← atName) && !(← newline)
  match w with
  | "var" => variableStatement rules
  | "let" =>
    if ← wordThen (return (← atName) || (← atPunct "\x7b") || (← atPunct "[")) then
      variableStatement rules
    else expressionStatement rules
  | "const" =>
    if ← wordThen (atWord "enum") then enumStatement rules else variableStatement rules
  | "function" => functionStatement rules
  | "class" => classStatement rules
  | "if" => ifStatement rules
  | "for" => forStatement rules
  | "while" => whileStatement rules
  | "with" => whileStatement rules
  | "do" => doStatement rules
  | "try" => tryStatement rules
  | "switch" => switchStatement rules
  | "return" => returnStatement rules
  | "throw" => throwStatement rules
  | "break" => jumpStatement
  | "continue" => jumpStatement
  | "debugger" => jumpStatement
  | "export" => exportStatement rules
  | "import" =>
    if ← wordThen (return (← atPunct "(") || (← atPunct ".")) then expressionStatement rules
    else importStatement rules
  | "async" =>
    if ← wordThen (return !(← newline) && (← atWord "function")) then functionStatement rules
    else expressionStatement rules
  | "abstract" =>
    if ← wordThen (atWord "class") then classStatement rules else expressionStatement rules
  | "interface" =>
    if ← wordThen namedHere then interfaceStatement rules else expressionStatement rules
  | "type" =>
    let defined : Parser Bool := do
      let _ ← nameLeaf .typeName
      return (← atPunct "=") || (← atChar '<')
    if (← wordThen namedHere) && (← wordThen defined) then typeStatement rules
    else expressionStatement rules
  | "enum" => if ← wordThen namedHere then enumStatement rules else expressionStatement rules
  | "namespace" | "module" =>
    let named : Parser Bool := return !(← newline) &&
      ((← atName) || (← atChar '"') || (← atChar '\''))
    if ← wordThen named then namespaceStatement rules else expressionStatement rules
  | "declare" => if ← wordThen namedHere then declareStatement rules else expressionStatement rules
  | _ => expressionStatement rules

def statementRule (rules : Rules) : Parser Node := do
  let start ← here
  match ← peekChar with
  | some '{' => rules .block
  | some ';' =>
    expectChar ';'
    node .other start []
  | some '@' =>
    let exported : Parser Bool := do
      let _ ← decorators rules
      atWord "export"
    if (← look exported) == some true then
      let marks ← decorators rules
      let rest ← exportStatement rules
      node .other start (marks ++ [rest])
    else classStatement rules
  | _ =>
    let w ← word
    if w == "" then expressionStatement rules
    else if (← wordThen (atPunct ":")) && w != "default" && w != "case" then labeledStatement rules
    else wordStatement rules w

end PropAtlas.Syntax.Grammar
