import PropAtlas.Query.Criterion

/-!
Criteria in one word: `name?` and `name!` for a prop that is there or not, `name=value` and
`name~value` for one whose value equals or contains a text, and a bare `name` for one that is there.
-/

namespace PropAtlas.Query.Shorthand

inductive Fault where
  /-- It names no prop. -/
  | noName (word : String)
  deriving DecidableEq, Repr

def Fault.message : Fault → String
  | .noName w => s!"criterion needs a prop name: {Quoted.shownString w}"

def isMark (c : Char) : Bool := c == '=' || c == '~'

/-- Reads the characters of a word without blanks around it. -/
def readChars (cs : List Char) : Option Criterion :=
  let name := cs.takeWhile (fun c => !isMark c)
  let named (c : Criterion) : Option Criterion := if c.name.isEmpty then none else some c
  match cs.dropWhile (fun c => !isMark c) with
  | mark :: value =>
    named {
      name := Text.ofChars name
      value := some (.text (Text.ofChars value))
      operator := if mark == '~' then .contains else .equals }
  | [] =>
    match cs.getLast? with
    | some '?' => named { name := Text.ofChars cs.dropLast, present := some true }
    | some '!' => named { name := Text.ofChars cs.dropLast, present := some false }
    | _ => named { name := Text.ofChars cs }

def read (word : String) : Except Fault Criterion :=
  let w := Blank.strip word
  match readChars w.toList with
  | some c => .ok c
  | none => .error (.noName w)

def written (c : Criterion) : Text :=
  match c.present, c.value with
  | some true, _ => c.name ++ Text.ofString "?"
  | some false, _ => c.name ++ Text.ofString "!"
  | none, some v =>
    c.name ++ Text.ofString (match c.operator with | .equals => "=" | .contains => "~") ++ v.spelled
  | none, none => c.name

end PropAtlas.Query.Shorthand
