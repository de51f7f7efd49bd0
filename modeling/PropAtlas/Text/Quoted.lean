import PropAtlas.Text.Printable

/-!
Text in quotes, as messages show it: in single quotes unless the text holds single quotes and no
double ones, with a backslash before the quote and before a backslash, and with escapes for what has no
picture of its own.
-/

namespace PropAtlas.Quoted

open PropAtlas (CodePoint Text)

/-- A number in at least `width` hexadecimal digits. -/
def hex (width n : Nat) : String :=
  let ds := Nat.toDigits 16 n
  String.ofList (List.replicate (width - ds.length) '0' ++ ds)

def shownPoint (quote : CodePoint) (p : CodePoint) : String :=
  if p = quote || p = CodePoint.ofChar '\\' then
    "\\" ++ String.singleton (Char.ofNat p.val)
  else if p = CodePoint.ofChar '\n' then "\\n"
  else if p = CodePoint.ofChar '\r' then "\\r"
  else if p = CodePoint.ofChar '\t' then "\\t"
  else if Printable.isPrintable p then String.singleton (Char.ofNat p.val)
  else if p.val < 0x100 then "\\x" ++ hex 2 p.val
  else if p.val < 0x10000 then "\\u" ++ hex 4 p.val
  else "\\U" ++ hex 8 p.val

/-- A text in quotes. -/
def shown (t : Text) : String :=
  let single := CodePoint.ofChar '\''
  let double := CodePoint.ofChar '"'
  let quote := if t.contains single && !t.contains double then double else single
  let mark := String.singleton (Char.ofNat quote.val)
  mark ++ String.join (t.map (shownPoint quote)) ++ mark

def shownString (s : String) : String := shown (Text.ofString s)

end PropAtlas.Quoted
