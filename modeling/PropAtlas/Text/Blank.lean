import PropAtlas.Text.CodePoint

/-!
Blank characters, and the blanks and quotes at the ends of a string.
-/

namespace PropAtlas.Blank

/-- White space of all scripts, together with the separators among the controls. -/
def isBlank (c : Char) : Bool :=
  let n := c.toNat
  (0x09 ≤ n && n ≤ 0x0D) || (0x1C ≤ n && n ≤ 0x20) || n == 0x85 || n == 0xA0 || n == 0x1680 ||
    (0x2000 ≤ n && n ≤ 0x200A) || n == 0x2028 || n == 0x2029 || n == 0x202F || n == 0x205F ||
    n == 0x3000

/-- The characters between the first and the last one that fail `p`. -/
def trim (p : Char → Bool) (cs : List Char) : List Char :=
  ((cs.dropWhile p).reverse.dropWhile p).reverse

def stripOf (p : Char → Bool) (s : String) : String :=
  String.ofList (trim p s.toList)

def strip (s : String) : String := stripOf isBlank s

def isEmpty (s : String) : Bool := s.toList.all isBlank

-- A surrogate is not blank.
def isBlankText (t : Text) : Bool := t.all (fun p => p.toChar?.any isBlank)

end PropAtlas.Blank
