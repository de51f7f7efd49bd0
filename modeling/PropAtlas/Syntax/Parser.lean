import PropAtlas.Syntax.Node
import PropAtlas.Syntax.Scan

/-!
Parsers over a source: they read tokens from a cursor and build nodes. A parser fails without saying
where, since a source is only ever accepted or refused as a whole. Recursion is open: a rule of the
grammar gets the other rules as an argument, and `Syntax.Grammar` ties them together. Loops run at
most once for each character that is left.
-/

namespace PropAtlas.Syntax

open PropAtlas (Source)

/-- TypeScript without markup, where `<T>x` is a cast, or with it, where `<T>` opens an element. -/
inductive Dialect where
  | typescript
  | tsx
  deriving DecidableEq, Repr

structure Input where
  dialect : Dialect
  source : Source

structure Cursor where
  /-- The end of the last token. -/
  last : Nat
  /-- The start of the next token. -/
  next : Nat
  /-- Whether a line feed lies between the two. -/
  newline : Bool
  /-- The comments between the two, the last one first. -/
  pending : List (Nat × Nat)
  /-- The comments before the last token, the last one first. -/
  comments : List (Nat × Nat)

namespace Cursor

/-- The cursor right after an offset. -/
def after (s : Source) (offset : Nat) (comments : List (Nat × Nat)) : Cursor :=
  let g := Scan.gap s offset
  ⟨offset, g.stop, g.newline, g.comments, comments⟩

end Cursor

abbrev Parser (α : Type) : Type := ReaderT Input (StateT Cursor Option) α

namespace Parser

variable {α β : Type}

def here : Parser Nat := return (← get).next

def last : Parser Nat := return (← get).last

def newline : Parser Bool := return (← get).newline

def dialect : Parser Dialect := return (← read).dialect

/-- Passes over the next token, which ends at `stop`. -/
def advance (stop : Nat) : Parser Unit := do
  let input ← read
  modify (fun c => Cursor.after input.source stop (c.pending ++ c.comments))

/-- Passes over raw text, in which there are no comments. -/
def jump (stop : Nat) : Parser Unit := do
  let input ← read
  modify (fun c => Cursor.after input.source stop c.comments)

/-- The token that a scanner finds next, if any. -/
def peekScan (scan : Source → Nat → Option Nat) : Parser (Option Nat) := do
  return scan (← read).source (← here)

def peekChar : Parser (Option Char) := do
  return (← read).source.chars[(← here)]?

def punct : Parser String := do
  return Scan.punctuator (← read).source (← here)

def word : Parser String := do
  let s := (← read).source
  let start ← here
  match Scan.name? s start with
  | some stop => return s.text start stop
  | none => return ""

def atPunct (p : String) : Parser Bool := return (← punct) == p

def atWord (w : String) : Parser Bool := return (← word) == w

def atChar (c : Char) : Parser Bool := return (← peekChar) == some c

def atEnd : Parser Bool := return (← peekChar).isNone

def eat (p : String) : Parser Bool := do
  if ← atPunct p then
    advance ((← here) + p.length)
    return true
  else return false

def expect (p : String) : Parser Unit := do
  if ← eat p then pure () else failure

/-- Passes over one character of the next token, whatever longer punctuator it starts. -/
def eatChar (c : Char) : Parser Bool := do
  if ← atChar c then
    advance ((← here) + 1)
    return true
  else return false

def expectChar (c : Char) : Parser Unit := do
  if ← eatChar c then pure () else failure

def eatWord (w : String) : Parser Bool := do
  if ← atWord w then
    advance ((← here) + w.length)
    return true
  else return false

def expectWord (w : String) : Parser Unit := do
  if ← eatWord w then pure () else failure

/-- What a parser would give here, without moving. -/
def look (p : Parser α) : Parser (Option α) := fun input c =>
  match p input c with
  | some (a, _) => some (some a, c)
  | none => some (none, c)

/-- Tries a parser; when it fails the cursor stays. -/
def attempt (p : Parser α) : Parser (Option α) := fun input c =>
  match p input c with
  | some (a, c') => some (some a, c')
  | none => some (none, c)

/-- What a parser would give right after the next name, without moving. -/
def afterWord (p : Parser α) : Parser (Option α) :=
  look do
    match ← peekScan Scan.name? with
    | some stop =>
      advance stop
      p
    | none => failure

def wordThen (p : Parser Bool) : Parser Bool :=
  return (← afterWord p) == some true

def atName : Parser Bool := return (← peekScan Scan.name?).isSome

def foldFor : Nat → α → (α → Parser (Option α)) → Parser α
  | 0, a, _ => pure a
  | n + 1, a, step => do
    match ← step a with
    | some b => foldFor n b step
    | none => pure a

/-- Repeats a step until it declines. -/
def fold (a : α) (step : α → Parser (Option α)) : Parser α := do
  let size := (← read).source.size
  foldFor (size - (← last) + 1) a step

def many (item : Parser (Option α)) : Parser (List α) := do
  let found ← fold ([] : List α) (fun acc => do
    match ← item with
    | some a => return some (a :: acc)
    | none => return none)
  return found.reverse

/-- Items up to, and without, a closing punctuator, with a comma between two of them and perhaps one
after the last. -/
def commaList (close : String) (item : Parser α) : Parser (List α) :=
  many do
    if ← atPunct close then return none
    else
      let a ← item
      if !(← eat ",") then
        if !(← atPunct close) then failure
      return some a

def sepBy (sep : String) (item : Parser α) : Parser (List α) := do
  let first ← item
  let others ← many do
    if ← eat sep then return some (← item) else return none
  return first :: others

/-- A node from `start` to the end of the last token. -/
def node (kind : Kind) (start : Nat) (children : List Node) : Parser Node := do
  return Node.mk kind none ⟨start, ← last⟩ children

/-- The token that a scanner finds next, as a node. -/
def leaf (kind : Kind) (scan : Source → Nat → Option Nat) : Parser Node := do
  let start ← here
  match ← peekScan scan with
  | some stop =>
    advance stop
    node kind start []
  | none => failure

def nameLeaf (kind : Kind) : Parser Node := leaf kind Scan.name?

/-- The end of a statement: a semicolon, or a place where one may be left out. -/
def semicolon : Parser Unit := do
  if ← eat ";" then pure ()
  else if (← newline) || (← atPunct "\x7d") || (← atEnd) then pure ()
  else failure

end Parser

inductive Rule where
  /-- Expressions with commas between them. -/
  | sequence
  /-- One expression; `noIn` where `in` belongs to a loop head, `noReturnType` where a colon after
  parentheses belongs to a condition. -/
  | expression (noIn noReturnType : Bool)
  /-- Operators that bind at least as tightly as a level, and their operands. -/
  | operation (level : Nat) (noIn noReturnType : Bool)
  | pattern
  | parameters
  /-- A type; `noConditional` where `extends` belongs to an outer condition. -/
  | type (noConditional : Bool)
  | typeArguments
  | typeParameters
  | objectType
  | block
  | classBody
  | statement
  | element
  deriving DecidableEq, Repr

abbrev Rules : Type := Rule → Parser Node

end PropAtlas.Syntax
