/-!
A source file as a sequence of characters. A place in it is an offset counted in characters; what a
reader is told is a line and a column, where only a line feed ends a line and the column counts
UTF-8 bytes.
-/

namespace PropAtlas

/-- The line, counted from one, and the column, counted in bytes from zero. -/
structure Location where
  line : Nat
  column : Nat
  deriving DecidableEq, Repr

namespace Location

def origin : Location := ⟨1, 0⟩

/-- The place right after a character. -/
def advance (l : Location) (c : Char) : Location :=
  if c = '\n' then ⟨l.line + 1, 0⟩ else ⟨l.line, l.column + c.utf8Size⟩

end Location

structure Source where
  chars : Array Char
  deriving DecidableEq

namespace Source

def ofList (cs : List Char) : Source := ⟨cs.toArray⟩

def size (s : Source) : Nat := s.chars.size

def slice (s : Source) (start stop : Nat) : List Char :=
  (s.chars.extract start stop).toList

def text (s : Source) (start stop : Nat) : String :=
  String.ofList (s.slice start stop)

def location (s : Source) (offset : Nat) : Location :=
  (s.slice 0 offset).foldl Location.advance Location.origin

/-- The offset of the first character from `i` on that fails `p`. -/
def scanWhile (s : Source) (p : Char → Bool) (i : Nat) : Nat :=
  if h : i < s.chars.size then
    if p s.chars[i] then s.scanWhile p (i + 1) else i
  else i
termination_by s.chars.size - i

def hasAt (s : Source) (i : Nat) : List Char → Bool
  | [] => true
  | c :: w => s.chars[i]? == some c && s.hasAt (i + 1) w

/-- The first place at or after `i` where the characters `w` stand. -/
def find? (s : Source) (w : List Char) (i : Nat) : Option Nat :=
  if s.hasAt i w then some i
  else if i < s.chars.size then s.find? w (i + 1)
  else none
termination_by s.chars.size - i

end Source

end PropAtlas
