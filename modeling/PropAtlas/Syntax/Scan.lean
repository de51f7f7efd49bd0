import PropAtlas.Source

/-!
Tokens of JSX and TypeScript, one at a time. Each scanner takes a source and an offset and gives the
offset right after the token that stands there, or `none` when no such token does. Which scanner to
ask is for the grammar to say: a slash may divide or open a regular expression, and inside an element
almost everything is text.
-/

namespace PropAtlas.Syntax.Scan

open PropAtlas (Source)

def isSpace (c : Char) : Bool :=
  let n := c.toNat
  (9 ≤ n && n ≤ 13) || n == 0x20 || n == 0x85 || n == 0xA0 || n == 0x1680 ||
    (0x2000 ≤ n && n ≤ 0x200B) || n == 0x2028 || n == 0x2029 || n == 0x202F || n == 0x205F ||
    n == 0x2060 || n == 0x3000 || n == 0xFEFF

/-- Characters that end a line comment, and that no string or regular expression may hold bare. -/
def isLineEnd (c : Char) : Bool :=
  c == '\n' || c == '\r' || c.toNat == 0x2028 || c.toNat == 0x2029

def isPunctuation (c : Char) : Bool :=
  ":;\x60\"'@#.,|^&<=>+-*/\\%?!~()[]\x7b\x7d".toList.contains c

/-- Names are written in any characters but control characters, space and punctuation. -/
def isNamePart (c : Char) : Bool :=
  !(c.toNat < 0x20 || isSpace c || isPunctuation c)

/-- A name does not start with a digit. -/
def isNameStart (c : Char) : Bool :=
  isNamePart c && !c.isDigit

def isHexDigit (c : Char) : Bool :=
  c.isDigit || ('a' ≤ c && c ≤ 'f') || ('A' ≤ c && c ≤ 'F')

/-- Reads up to `limit` characters of a class; `none` if there is not even `least` of them. -/
def run? (s : Source) (p : Char → Bool) (least limit : Nat) (i : Nat) : Option Nat :=
  let stop := min (s.scanWhile p i) (i + limit)
  if i + least ≤ stop then some stop else none

/-- One hexadecimal number in braces, as in `{1F600}`. -/
def bracedHex? (s : Source) (i : Nat) : Option Nat :=
  if s.hasAt i ['{'] then
    match run? s isHexDigit 1 s.size (i + 1) with
    | some j => if s.hasAt j ['}'] then some (j + 1) else none
    | none => none
  else none

/-- A character of a name written `a` or `\u{61}`. -/
def nameEscape? (s : Source) (i : Nat) : Option Nat :=
  if s.hasAt i ['\\', 'u'] then
    match bracedHex? s (i + 2) with
    | some j => some j
    | none => run? s isHexDigit 4 4 (i + 2)
  else none

def namePiece? (s : Source) (p : Char → Bool) (i : Nat) : Option Nat :=
  match s.chars[i]? with
  | some c => if p c then some (i + 1) else if c == '\\' then nameEscape? s i else none
  | none => none

/-- The end of a name of which the part before `i` is read; `fuel` bounds the pieces left. -/
def nameRest (s : Source) : (fuel : Nat) → Nat → Nat
  | 0, i => i
  | fuel + 1, i =>
    match namePiece? s isNamePart i with
    | some j => nameRest s fuel j
    | none => i

def name? (s : Source) (i : Nat) : Option Nat :=
  (namePiece? s isNameStart i).map (fun j => nameRest s (s.size - j) j)

def isAsciiNameStart (c : Char) : Bool :=
  c.isAlpha || c == '_' || c == '$'

def isAsciiNamePart (c : Char) : Bool :=
  c.isAlphanum || c == '_' || c == '$'

/-- The name of an element or attribute: a name, or an ASCII name with dashes in it. -/
def tagName? (s : Source) (i : Nat) : Option Nat :=
  let plain := s.scanWhile isAsciiNamePart i
  let dashed := s.scanWhile (fun c => isAsciiNamePart c || c == '-') plain
  let starts := (s.chars[i]?).any isAsciiNameStart
  if starts && s.hasAt plain ['-'] then some dashed else name? s i

def comment? (s : Source) (i : Nat) : Option Nat :=
  if s.hasAt i ['/', '/'] then some (s.scanWhile (fun c => !isLineEnd c) (i + 2))
  else if s.hasAt i ['/', '*'] then (s.find? ['*', '/'] (i + 2)).map (· + 2)
  else none

structure Gap where
  /-- Where the next token starts. -/
  stop : Nat
  /-- Whether a line feed was passed. -/
  newline : Bool
  /-- Where the comments lie, the last one first. -/
  comments : List (Nat × Nat)

def gapFrom (s : Source) : (fuel : Nat) → Gap → Gap
  | 0, g => g
  | fuel + 1, g =>
    let j := s.scanWhile isSpace g.stop
    let newline := g.newline || (s.slice g.stop j).contains '\n'
    match comment? s j with
    | some k =>
      gapFrom s fuel ⟨k, newline || (s.slice j k).contains '\n', (j, k) :: g.comments⟩
    | none => ⟨j, newline, g.comments⟩

def gap (s : Source) (i : Nat) : Gap :=
  gapFrom s (s.size - i + 1) ⟨i, false, []⟩

/-- Punctuators, a longer one before its prefixes. -/
def punctuators : List String :=
  [">>>=", "...", "===", "!==", "**=", "<<=", ">>=", ">>>", "&&=", "||=", "??=",
   "=>", "==", "!=", "<=", ">=", "&&", "||", "??", "?.", "++", "--", "+=", "-=", "*=", "/=", "%=",
   "&=", "|=", "^=", "<<", ">>", "**",
   "\x7b", "\x7d", "(", ")", "[", "]", ";", ",", "<", ">", "+", "-", "*", "/", "%", "&", "|", "^", "!",
   "~", "?", ":", "=", ".", "@", "#"]

/-- The longest punctuator at an offset, the empty text if there is none. In `a?.5:b` the question
mark stands alone. -/
def punctuator (s : Source) (i : Nat) : String :=
  match punctuators.find? (fun p => s.hasAt i p.toList) with
  | some "?." => if (s.chars[i + 2]?).any Char.isDigit then "?" else "?."
  | some p => p
  | none => ""

/-- Digits with single underscores between them. -/
def digits? (s : Source) (p : Char → Bool) (i : Nat) : Option Nat :=
  run? s (fun c => p c || c == '_') 1 s.size i

def exponent (s : Source) (i : Nat) : Nat :=
  if s.hasAt i ['e'] || s.hasAt i ['E'] then
    let j := if s.hasAt (i + 1) ['+'] || s.hasAt (i + 1) ['-'] then i + 2 else i + 1
    (digits? s Char.isDigit j).getD i
  else i

/-- A number in base 16, 8 or 2, after the zero that opens it. -/
def based? (s : Source) (i : Nat) : Option Nat :=
  match s.chars[i]? with
  | some 'x' | some 'X' => digits? s isHexDigit (i + 1)
  | some 'o' | some 'O' => digits? s (fun c => '0' ≤ c && c ≤ '7') (i + 1)
  | some 'b' | some 'B' => digits? s (fun c => c == '0' || c == '1') (i + 1)
  | _ => none

def number? (s : Source) (i : Nat) : Option Nat :=
  let big (j : Nat) : Nat := if s.hasAt j ['n'] then j + 1 else j
  match (if s.hasAt i ['0'] then based? s (i + 1) else none) with
  | some j => some (big j)
  | none =>
    if (s.chars[i]?).any Char.isDigit then
      let whole := (digits? s Char.isDigit i).getD i
      if s.hasAt whole ['.'] then
        some (exponent s ((digits? s Char.isDigit (whole + 1)).getD (whole + 1)))
      else some (big (exponent s whole))
    else if s.hasAt i ['.'] then
      (if (s.chars[i + 1]?).any Char.isDigit then digits? s Char.isDigit (i + 1) else none).map
        (exponent s)
    else none

/-- An escape in a string or template, after its backslash: up to three octal digits, `x` and two
hexadecimal digits, `u` and four or braced ones, or any other one character. -/
def escape? (s : Source) (i : Nat) : Option Nat :=
  match s.chars[i]? with
  | none => none
  | some 'x' => run? s isHexDigit 2 2 (i + 1)
  | some 'u' =>
    match bracedHex? s (i + 1) with
    | some j => some j
    | none => run? s isHexDigit 4 4 (i + 1)
  | some c =>
    if '0' ≤ c && c ≤ '7' then run? s (fun d => '0' ≤ d && d ≤ '7') 1 3 i
    else if c == '\r' && s.hasAt (i + 1) ['\n'] then some (i + 2)
    else some (i + 1)

def stringRest? (s : Source) (quote : Char) : (fuel : Nat) → Nat → Option Nat
  | 0, _ => none
  | fuel + 1, i =>
    match s.chars[i]? with
    | none => none
    | some c =>
      if c == quote then some (i + 1)
      else if c == '\\' then (escape? s (i + 1)).bind (stringRest? s quote fuel)
      else if c == '\n' || c == '\r' then none
      else stringRest? s quote fuel (i + 1)

def string? (s : Source) (i : Nat) : Option Nat :=
  match s.chars[i]? with
  | some '"' => stringRest? s '"' (s.size - i) (i + 1)
  | some '\'' => stringRest? s '\'' (s.size - i) (i + 1)
  | _ => none

def reference? (s : Source) (i : Nat) : Option Nat :=
  let body :=
    if s.hasAt i ['&', '#', 'x'] || s.hasAt i ['&', '#', 'X'] then run? s isHexDigit 1 6 (i + 3)
    else if s.hasAt i ['&', '#'] then run? s Char.isDigit 1 5 (i + 2)
    else if s.hasAt i ['&'] then run? s Char.isAlpha 1 30 (i + 1)
    else none
  body.bind (fun j => if s.hasAt j [';'] then some (j + 1) else none)

def markupStringRest? (s : Source) (quote : Char) : (fuel : Nat) → Nat → Option Nat
  | 0, _ => none
  | fuel + 1, i =>
    match s.chars[i]? with
    | none => none
    | some c =>
      if c == quote then some (i + 1)
      else if c == '&' then
        match s.chars[i + 1]? with
        | none => none
        | some d =>
          if d == '#' || d.isAlpha then (reference? s i).bind (markupStringRest? s quote fuel)
          else markupStringRest? s quote fuel (i + 2)
      else markupStringRest? s quote fuel (i + 1)

/-- The string value of an attribute: no escapes, line ends allowed, and an ampersand before a letter
or a number sign opens a character reference. -/
def markupString? (s : Source) (i : Nat) : Option Nat :=
  match s.chars[i]? with
  | some '"' => markupStringRest? s '"' (s.size - i) (i + 1)
  | some '\'' => markupStringRest? s '\'' (s.size - i) (i + 1)
  | _ => none

/-- The text of an element up to the next tag, brace or end; `none` if it holds a bare ampersand. -/
def markupText? (s : Source) : (fuel : Nat) → Nat → Option Nat
  | 0, i => some i
  | fuel + 1, i =>
    match s.chars[i]? with
    | none => some i
    | some c =>
      if c == '<' || c == '>' || c == '{' || c == '}' then some i
      else if c == '&' then (reference? s i).bind (markupText? s fuel)
      else markupText? s fuel (i + 1)

/-- Where the next substitution or the closing backtick of a template stands. -/
def templateText? (s : Source) : (fuel : Nat) → Nat → Option Nat
  | 0, _ => none
  | fuel + 1, i =>
    match s.chars[i]? with
    | none => none
    | some '\x60' => some i
    | some '\\' => (escape? s (i + 1)).bind (templateText? s fuel)
    | some '$' => if s.hasAt (i + 1) ['{'] then some i else templateText? s fuel (i + 1)
    | some _ => templateText? s fuel (i + 1)

def regexRest? (s : Source) : (fuel : Nat) → (inClass : Bool) → Nat → Option Nat
  | 0, _, _ => none
  | fuel + 1, inClass, i =>
    match s.chars[i]? with
    | none => none
    | some c =>
      if isLineEnd c then none
      else if c == '\\' then
        match s.chars[i + 1]? with
        | none => none
        | some d => if isLineEnd d then none else regexRest? s fuel inClass (i + 2)
      else if c == '[' then regexRest? s fuel true (i + 1)
      else if c == ']' then regexRest? s fuel false (i + 1)
      else if c == '/' && !inClass then some (s.scanWhile Char.isAlpha (i + 1))
      else regexRest? s fuel inClass (i + 1)

def regex? (s : Source) (i : Nat) : Option Nat :=
  if s.hasAt i ['/'] && !s.hasAt (i + 1) ['/'] && !s.hasAt (i + 1) ['*'] then
    regexRest? s (s.size - i) false (i + 1)
  else none

end PropAtlas.Syntax.Scan
