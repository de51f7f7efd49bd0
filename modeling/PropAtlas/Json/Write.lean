import PropAtlas.Json.Basic

/-!
JSON text in ASCII. Whatever is not printable ASCII is escaped, beyond U+FFFF as two surrogates. On
one line there is no space at all; over several lines each level is indented by two blanks.
-/

namespace PropAtlas.Json

def unitEscape (n : Nat) : String := "\\u" ++ Quoted.hex 4 n

def escapedPoint (p : CodePoint) : String :=
  let n := p.val
  if n = 0x22 then "\\\""
  else if n = 0x5C then "\\\\"
  else if n = 0x0A then "\\n"
  else if n = 0x0D then "\\r"
  else if n = 0x09 then "\\t"
  else if n = 0x0C then "\\f"
  else if n = 0x08 then "\\b"
  else if 0x20 ≤ n && n ≤ 0x7E then String.singleton (Char.ofNat n)
  else if n < 0x10000 then unitEscape n
  else unitEscape (0xD800 + (n - 0x10000) / 0x400) ++ unitEscape (0xDC00 + (n - 0x10000) % 0x400)

def quotedText (t : Text) : String :=
  "\"" ++ String.join (t.map escapedPoint) ++ "\""

/-- A double as a JSON number. -/
def realText (x : Double) : String :=
  match x with
  | .infinite true => "-Infinity"
  | .infinite false => "Infinity"
  | _ => Shortest.text x

mutual

def line : Json → String
  | .null => "null"
  | .bool true => "true"
  | .bool false => "false"
  | .int n => toString n
  | .real x => realText x
  | .text t => quotedText t
  | .list items => "[" ++ String.intercalate "," (lineItems items) ++ "]"
  | .object fields => "\x7b" ++ String.intercalate "," (lineFields fields) ++ "\x7d"

def lineItems : List Json → List String
  | [] => []
  | j :: js => line j :: lineItems js

def lineFields : List (Text × Json) → List String
  | [] => []
  | (name, j) :: rest => (quotedText name ++ ":" ++ line j) :: lineFields rest

end

/-- A line break and the indentation of a level. -/
def newLine (level : Nat) : String :=
  "\n" ++ String.ofList (List.replicate (2 * level) ' ')

/-- Items between two brackets, each on a line of its own. -/
def bracketed (opening closing : String) (level : Nat) (items : List String) : String :=
  match items with
  | [] => opening ++ closing
  | _ => opening ++ newLine (level + 1) ++
      String.intercalate ("," ++ newLine (level + 1)) items ++ newLine level ++ closing

mutual

/-- A value over several lines, whose first line stands at a level. -/
def pages (level : Nat) : Json → String
  | .null => "null"
  | .bool true => "true"
  | .bool false => "false"
  | .int n => toString n
  | .real x => realText x
  | .text t => quotedText t
  | .list items => bracketed "[" "]" level (pageItems (level + 1) items)
  | .object fields => bracketed "\x7b" "\x7d" level (pageFields (level + 1) fields)

def pageItems (level : Nat) : List Json → List String
  | [] => []
  | j :: js => pages level j :: pageItems level js

def pageFields (level : Nat) : List (Text × Json) → List String
  | [] => []
  | (name, j) :: rest => (quotedText name ++ ": " ++ pages level j) :: pageFields level rest

end

def indented (j : Json) : String := pages 0 j

end PropAtlas.Json
