import PropAtlas.Syntax.Grammar.Types
import PropAtlas.Syntax.Grammar.Patterns

/-!
Expressions, from literals up to assignments and arrow functions.
-/

namespace PropAtlas.Syntax.Grammar

open PropAtlas.Syntax.Parser

/-- A method from its type parameters on: parameters, result and body. -/
def methodRest (rules : Rules) : Parser (List Node) := do
  let parts ← signature rules
  let body ← rules .block
  return parts ++ [body.within .body]

def item (rules : Rules) : Parser Node := do
  let start ← here
  if ← eat "..." then
    let e ← rules (.expression false false)
    node .spread start [e]
  else rules (.expression false false)

def argumentList (rules : Rules) : Parser Node := do
  let start ← here
  expect "("
  let args ← commaList ")" (item rules)
  expect ")"
  node .argumentList start args

/-- An array literal; places may be left empty. -/
def array (rules : Rules) : Parser Node := do
  let start ← here
  expectChar '['
  let items ← commaList "]" do
    if ← atPunct "," then return [] else return [← item rules]
  expectChar ']'
  node .array start items.flatten

def objectEntry (rules : Rules) : Parser Node := do
  let start ← here
  if ← atPunct "..." then item rules
  else
    let _ ← many do
      let w ← word
      let named : Parser Bool := return (← atMemberName) || (← atPunct "*")
      if (w == "async" || w == "get" || w == "set") && (← wordThen named) then
        let _ ← nameLeaf .other
        return some ()
      else if ← eat "*" then return some ()
      else return none
    let name ← memberName rules
    if (← atPunct "(") || (← atChar '<') then
      node .other start (name.within .name :: (← methodRest rules))
    else if ← eat ":" then
      let value ← rules (.expression false false)
      node .other start [name.within .key, value.within .value]
    else if name.kind != .propertyName then failure
    else return Node.mk .shorthandName none name.span []

def object (rules : Rules) : Parser Node := do
  let start ← here
  expectChar '{'
  let entries ← commaList "\x7d" (objectEntry rules)
  expectChar '}'
  node .object start entries

def parenthesized (rules : Rules) : Parser Node := do
  let start ← here
  expectChar '('
  let e ← rules .sequence
  let ann ← annotation? rules
  expectChar ')'
  node .parenthesized start (e :: ann)

/-- A function from its keyword on: whether it has a name, and its parts, of which the body may be
missing. -/
structure FunctionParts where
  named : Bool
  parts : List Node
  hasBody : Bool

def functionParts (rules : Rules) : Parser FunctionParts := do
  let _ ← eatWord "async"
  expectWord "function"
  let _ ← eat "*"
  let name ← if ← atName then pure [(← nameLeaf .identifier).within .name] else pure []
  let generics ← typeParameters? rules
  let ps ← rules .parameters
  let result ← returnType? rules
  let head := name ++ generics ++ [ps.within .parameters] ++ result
  if ← atPunct "\x7b" then
    let body ← rules .block
    return ⟨!name.isEmpty, head ++ [body.within .body], true⟩
  else return ⟨!name.isEmpty, head, false⟩

def functionExpression (rules : Rules) : Parser Node := do
  let start ← here
  let f ← functionParts rules
  if f.hasBody then node .functionExpression start f.parts else failure

def heritage (rules : Rules) : Parser (List Node) := do
  let extended ← if ← eatWord "extends" then
      let base ← rules (.operation 20 false false)
      let typeArgs ← if ← atChar '<' then pure [← rules .typeArguments] else pure []
      pure (base :: typeArgs)
    else pure []
  let implemented ← if ← eatWord "implements" then sepBy "," (rules (.type true)) else pure []
  return extended ++ implemented

def classParts (rules : Rules) : Parser (List Node) := do
  expectWord "class"
  let name ← if (← atName) && !(← atWord "extends") && !(← atWord "implements") then
      pure [(← nameLeaf .typeName).within .name]
    else pure []
  let generics ← typeParameters? rules
  let bases ← heritage rules
  let body ← rules .classBody
  return name ++ generics ++ bases ++ [body.within .body]

def classExpression (rules : Rules) : Parser Node := do
  let start ← here
  let marks ← decorators rules
  let parts ← classParts rules
  node .other start (marks ++ parts)

def template (rules : Rules) : Parser Node :=
  templateOf .template (rules .sequence)

def isLiteralWord (w : String) : Bool :=
  ["this", "true", "false", "null", "undefined"].contains w

/-- Words that start or join expressions and never name a value. -/
def isReservedWord (w : String) : Bool :=
  ["typeof", "void", "delete", "await", "yield", "new", "class", "function", "import"].contains w

/-- A literal or, where something is assigned to it, a pattern. -/
def literalOrPattern (rules : Rules) (literal : Parser Node) : Parser Node := do
  match ← attempt literal with
  | some e => return e
  | none =>
    let target ← rules .pattern
    if (← atPunct "=") || (← atWord "of") || (← atWord "in") then return target else failure

def primary (rules : Rules) : Parser Node := do
  match ← peekChar with
  | some '(' => parenthesized rules
  | some '[' => literalOrPattern rules (array rules)
  | some '{' => literalOrPattern rules (object rules)
  | some '"' | some '\'' => leaf .string Scan.string?
  | some '\x60' => template rules
  | some '/' => leaf .other Scan.regex?
  | some '#' => privateName
  | some '@' => classExpression rules
  | some '<' => if (← dialect) == .tsx then rules .element else failure
  | some c =>
    if c.isDigit || c == '.' then leaf .number Scan.number?
    else
      let w ← word
      if w == "function" then functionExpression rules
      else if w == "async" && (← wordThen (return !(← newline) && (← atWord "function"))) then
        functionExpression rules
      else if w == "class" then classExpression rules
      else if isLiteralWord w then nameLeaf .keyword
      else if w == "super" || w == "import" then nameLeaf .other
      else if isReservedWord w then failure
      else nameLeaf .identifier
  | none => failure

def property : Parser Node := do
  if ← atChar '#' then privateName else nameLeaf .propertyName

def subscript (rules : Rules) (start : Nat) (object : Node) : Parser Node := do
  expectChar '['
  let index ← rules .sequence
  expectChar ']'
  node .subscript start [object.within .object, index.within .index]

/-- Whether type arguments may end an expression before the next token. -/
def endsInstantiation : Parser Bool := do
  let p ← punct
  if ← newline then return true
  else if ← atEnd then return true
  else return [")", "]", "\x7d", ":", ";", ",", ".", "?.", "?", "=", "==", "===", "!=", "!==", "&&",
    "||", "??", "&", "|", "^"].contains p

/-- Type arguments and what they may stand before: a call, or the end of the expression. -/
def typeArgumentsTail (rules : Rules) (start : Nat) (callee : Node) : Parser Node := do
  let typeArgs ← rules .typeArguments
  if ← atPunct "(" then
    let args ← argumentList rules
    node .call start [callee.within .function, typeArgs, args.within .arguments]
  else if ← endsInstantiation then node .other start [callee, typeArgs]
  else failure

def link (rules : Rules) (start : Nat) (e : Node) : Parser (Option Node) := do
  match ← punct with
  | "." =>
    expectChar '.'
    let p ← property
    return some (← node .member start [e.within .object, p.within .property])
  | "?." =>
    expect "?."
    if ← atPunct "(" then
      let args ← argumentList rules
      return some (← node .call start [e.within .function, args.within .arguments])
    else if ← atPunct "[" then return some (← subscript rules start e)
    else if ← atChar '<' then
      let typeArgs ← rules .typeArguments
      let args ← argumentList rules
      return some (← node .call start [e.within .function, typeArgs, args.within .arguments])
    else
      let p ← property
      return some (← node .member start [e.within .object, p.within .property])
  | "[" => return some (← subscript rules start e)
  | "(" =>
    let args ← argumentList rules
    return some (← node .call start [e.within .function, args.within .arguments])
  | "!" =>
    if ← newline then return none
    else
      expectChar '!'
      return some (← node .wrapped start [e])
  | "<" => attempt (typeArgumentsTail rules start e)
  | "" =>
    if ← atChar '\x60' then
      let t ← template rules
      return some (← node .call start [e.within .function, t.within .arguments])
    else return none
  | _ => return none

def newExpression (rules : Rules) : Parser Node := do
  let start ← here
  expectWord "new"
  if ← eat "." then
    let _ ← nameLeaf .other
    node .other start []
  else
    let calleeStart ← here
    let base ← primary rules
    let callee ← fold base fun e => do
      match ← punct with
      | "." =>
        expectChar '.'
        let p ← property
        return some (← node .member calleeStart [e.within .object, p.within .property])
      | "[" => return some (← subscript rules calleeStart e)
      | _ => return none
    let typed : Parser Node := do
      let typeArgs ← rules .typeArguments
      if (← atPunct "(") || (← endsInstantiation) then return typeArgs else failure
    let typeArgs ← if ← atPunct "<" then pure (← attempt typed).toList else pure []
    let args ← if ← atPunct "(" then pure [← argumentList rules] else pure []
    node .other start (callee :: typeArgs ++ args)

def chain (rules : Rules) : Parser Node := do
  let start ← here
  let base ← if ← atWord "new" then newExpression rules else primary rules
  let e ← fold base (link rules start)
  if ((← atPunct "++") || (← atPunct "--")) && !(← newline) then
    advance ((← here) + 2)
    node .other start [e]
  else return e

/-- Something written before an operand: an operator, or a cast in angle brackets. -/
structure Before where
  kind : Kind
  start : Nat
  parts : List Node

def before? (rules : Rules) : Parser (Option Before) := do
  let start ← here
  let p ← punct
  let w ← word
  if p == "!" || p == "~" || p == "+" || p == "-" then
    advance (start + 1)
    return some ⟨.unary, start, [(← node .operator start []).within .operator]⟩
  else if w == "typeof" || w == "void" || w == "delete" then
    expectWord w
    return some ⟨.unary, start, [(← node .operator start []).within .operator]⟩
  else if p == "++" || p == "--" then
    advance (start + 2)
    return some ⟨.other, start, []⟩
  else if w == "await" then
    expectWord w
    return some ⟨.other, start, []⟩
  else if p == "<" && (← dialect) == .typescript then
    let typeArgs ← rules .typeArguments
    return some ⟨.other, start, [typeArgs]⟩
  else return none

def operand (rules : Rules) : Parser Node := do
  let befores ← fold ([] : List Before) fun acc => do
    match ← before? rules with
    | some b => return some (b :: acc)
    | none => return none
  let e ← chain rules
  let stop ← last
  return befores.foldl (fun e b => Node.mk b.kind none ⟨b.start, stop⟩
    (b.parts ++ [e.within .argument])) e

def tightness (op : String) : Nat :=
  match op with
  | "??" | "||" => 1
  | "&&" => 2
  | "|" => 3
  | "^" => 4
  | "&" => 5
  | "==" | "!=" | "===" | "!==" => 6
  | "<" | ">" | "<=" | ">=" | "in" | "instanceof" | "as" | "satisfies" => 7
  | "<<" | ">>" | ">>>" => 8
  | "+" | "-" => 9
  | "*" | "/" | "%" => 10
  | "**" => 11
  | _ => 0

/-- The operator that stands next between two operands. -/
def operatorWord (noIn : Bool) : Parser String := do
  let p ← punct
  if p != "" then return p
  else
    let w ← word
    if w == "in" && noIn then return ""
    else if (w == "as" || w == "satisfies") && (← newline) then return ""
    else return w

/-- Operators of a level or tighter; those of one level group to the left, powers to the right. -/
def operationRule (rules : Rules) (level : Nat) (noIn noReturnType : Bool) : Parser Node := do
  let start ← here
  let first ← operand rules
  fold first fun left => do
    let op ← operatorWord noIn
    let t := tightness op
    if t == 0 || t < level then return none
    else
      advance ((← here) + op.length)
      if op == "as" || op == "satisfies" then
        if ← eatWord "const" then return some (← node .wrapped start [left])
        else
          let ty ← rules (.type true)
          return some (← node .wrapped start [left, ty])
      else
        let next := if op == "**" then t else t + 1
        let right ← rules (.operation next noIn noReturnType)
        return some (← node .other start [left, right])

/-- The head of an arrow function, up to its arrow. -/
def arrow : Parser Unit := do
  if ← newline then failure
  expect "=>"

/-- Type parameters, parameters, result and arrow. -/
def arrowSignature (rules : Rules) (noReturnType : Bool) : Parser (List Node) := do
  let generics ← typeParameters? rules
  let ps ← rules .parameters
  let result ← if noReturnType then pure [] else returnType? rules
  arrow
  return generics ++ [ps.within .parameters] ++ result

def arrowName : Parser (List Node) := do
  let p ← nameLeaf .identifier
  arrow
  return [p.within .parameter]

/-- Whether parentheses may hold parameters, by the first token in them. -/
def opensParameters : Parser Bool := do
  if ← atPunct "(" then
    let inside : Parser Bool := do
      expectChar '('
      return (← atName) || (← atPunct ")") || (← atPunct "\x7b") || (← atPunct "[") ||
        (← atPunct "...") || (← atChar '@')
    return (← look inside) == some true
  else return false

def arrowHead? (rules : Rules) (noReturnType : Bool) : Parser (Option (List Node)) := do
  if ← atName then
    if ← wordThen (atPunct "=>") then attempt arrowName
    else if (← atWord "async") && (← wordThen (return !(← newline))) then
      attempt do
        expectWord "async"
        if ← atName then arrowName else arrowSignature rules noReturnType
    else return none
  else if (← opensParameters) || (← atPunct "<") then attempt (arrowSignature rules noReturnType)
  else return none

def isAssignment (op : String) : Bool :=
  ["=", "+=", "-=", "*=", "/=", "%=", "**=", "<<=", ">>=", ">>>=", "&=", "|=", "^=", "&&=", "||=",
    "??="].contains op

def isFixed (k : Kind) : Bool :=
  [Kind.number, .string, .template, .call, .keyword, .element, .selfClosingElement,
    .functionExpression].contains k

/-- The two branches of a condition. A colon after parentheses in the first one opens a result type if
another colon follows it, and else the second branch. -/
def branches (rules : Rules) (noIn noReturnType : Bool) : Parser (List Node) := do
  let first (free : Bool) : Parser Node := do
    let yes ← rules (.expression false free)
    expect ":"
    return yes
  let yes ← match ← attempt (first false) with
    | some yes => pure yes
    | none => first true
  let no ← rules (.expression noIn noReturnType)
  return [yes, no]

def yieldExpression (rules : Rules) (noIn noReturnType : Bool) : Parser Node := do
  let start ← here
  expectWord "yield"
  let delegated ← eat "*"
  let p ← punct
  let ends := [")", "]", "\x7d", ":", ";", ","].contains p
  if !delegated && (ends || (← newline) || (← atEnd)) then node .other start []
  else
    let e ← rules (.expression noIn noReturnType)
    node .other start [e]

def expressionRule (rules : Rules) (noIn noReturnType : Bool) : Parser Node := do
  let start ← here
  match ← arrowHead? rules noReturnType with
  | some head =>
    let body ← if ← atPunct "\x7b" then rules .block else rules (.expression noIn noReturnType)
    node .arrowFunction start (head ++ [body.within .body])
  | none =>
    if ← atWord "yield" then yieldExpression rules noIn noReturnType
    else
      let left ← operationRule rules 0 noIn noReturnType
      let op ← punct
      if op == "?" then
        expect "?"
        node .other start (left :: (← branches rules noIn noReturnType))
      else if isAssignment op then
        if isFixed left.kind then failure
        expect op
        let right ← rules (.expression noIn noReturnType)
        node .other start [left, right]
      else return left

def sequenceRule (rules : Rules) : Parser Node := do
  let start ← here
  groupOf start (← sepBy "," (rules (.expression false false)))

end PropAtlas.Syntax.Grammar
