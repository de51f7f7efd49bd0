import PropAtlas.Text.LetterCase

/-!
Paths. A path is a sequence of names between slashes; empty names and single dots say nothing. Two
slashes at the start are kept apart from one.
-/

namespace PropAtlas

inductive Anchor where
  | here
  | root
  | doubleRoot
  deriving DecidableEq, Repr

def Anchor.text : Anchor → String
  | .here => ""
  | .root => "/"
  | .doubleRoot => "//"

structure Path where
  anchor : Anchor
  names : List String
  deriving DecidableEq, Repr

namespace Path

/-- The pieces of a text between slashes, empty ones included. -/
def pieces (cs : List Char) : List (List Char) :=
  match cs with
  | [] => [[]]
  | c :: rest =>
    if c = '/' then [] :: pieces rest
    else
      match pieces rest with
      | [] => [[c]]
      | p :: ps => (c :: p) :: ps

def steps (text : String) : List String := (pieces text.toList).map String.ofList

def isIdle (name : String) : Bool := name == "" || name == "."

def isRooted (text : String) : Bool := text.toList.head? == some '/'

def anchorOf (text : String) : Anchor :=
  match (text.toList.takeWhile (· == '/')).length with
  | 0 => .here
  | 2 => .doubleRoot
  | _ => .root

def ofString (text : String) : Path :=
  ⟨anchorOf text, (steps text).filter (fun n => !isIdle n)⟩

def absolute (names : List String) : Path := ⟨.root, names⟩

def text (p : Path) : String :=
  if p.anchor = .here && p.names.isEmpty then "."
  else p.anchor.text ++ String.intercalate "/" p.names

def join (base p : Path) : Path :=
  if p.anchor = .here then ⟨base.anchor, base.names ++ p.names⟩ else p

/-- Whether a path is at or below another one, name by name. -/
def contains (root p : Path) : Bool :=
  root.anchor == p.anchor && root.names.isPrefixOf p.names

def ancestors (names : List String) : List (List String) :=
  (List.range (names.length + 1)).map (fun k => names.take (names.length - k))

/-- A text continued by a name. -/
def extend (text name : String) : String :=
  if text.isEmpty || text.endsWith "/" then text ++ name else text ++ "/" ++ name

def fileName (text : String) : String := ((ofString text).names.getLast?).getD ""

/-- The end of a file name from its last dot on. A dot at the start or at the end does not count. -/
def suffixOf (name : String) : String :=
  let cs := name.toList
  let tail := (cs.reverse.takeWhile (· != '.')).reverse
  if tail.length + 1 < cs.length && tail.length ≠ 0 then String.ofList ('.' :: tail) else ""

/-- The suffix of a path's file name in lower case. -/
def suffix (text : String) : String := LetterCase.lower (suffixOf (fileName text))

end Path

end PropAtlas
