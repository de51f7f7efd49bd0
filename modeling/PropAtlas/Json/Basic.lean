import PropAtlas.Number.Shortest
import PropAtlas.Text.Quoted
import PropAtlas.Text.WholeNumber

/-!
JSON values. They are what queries are asked in and what every answer is made of. Whole numbers are
exact, other numbers are doubles, and the fields of an object keep their order. Strings and names of
fields may hold surrogates.
-/

namespace PropAtlas

inductive Json where
  | null
  | bool (b : Bool)
  | int (n : Int)
  | real (x : Double)
  | text (t : Text)
  | list (items : List Json)
  | object (fields : List (Text × Json))

namespace Json

def string (s : String) : Json := .text (Text.ofString s)

def nat (n : Nat) : Json := .int n

def strings (ss : List String) : Json := .list (ss.map string)

def texts (ts : List Text) : Json := .list (ts.map text)

/-- An object whose fields are named by strings. -/
def record (fields : List (String × Json)) : Json :=
  .object (fields.map (fun (name, j) => (Text.ofString name, j)))

def field? (j : Json) (name : String) : Option Json :=
  match j with
  | .object fields => fields.lookup (Text.ofString name)
  | _ => none

theorem field?_record (fields : List (String × Json)) (name : String) :
    (record fields).field? name = fields.lookup name := by
  simp only [record, field?]
  induction fields with
  | nil => rfl
  | cons field rest ih =>
    obtain ⟨key, j⟩ := field
    by_cases h : name = key
    · subst h
      simp
    · have hname : Text.ofString name ≠ Text.ofString key := mt Text.ofString_inj.mp h
      rw [List.map_cons, List.lookup_cons, List.lookup_cons, beq_false_of_ne hname, beq_false_of_ne h, ih]

/-- Whether a value counts as absent: null, false, zero, or empty. -/
def isEmptyish : Json → Bool
  | .null => true
  | .bool b => !b
  | .int n => n == 0
  | .real x => x.isZero
  | .text t => t.isEmpty
  | .list items => items.isEmpty
  | .object fields => fields.isEmpty

/-- What messages call the type of a value. -/
def typeName : Json → String
  | .null => "NoneType"
  | .bool _ => "bool"
  | .int _ => "int"
  | .real _ => "float"
  | .text _ => "str"
  | .list _ => "list"
  | .object _ => "dict"

mutual

/-- Whether a value can be shown: no whole number in it has too many digits. -/
def isWritable : Json → Bool
  | .int n => WholeNumber.isWritable n
  | .list items => areWritable items
  | .object fields => fieldsWritable fields
  | _ => true

def areWritable : List Json → Bool
  | [] => true
  | j :: js => isWritable j && areWritable js

def fieldsWritable : List (Text × Json) → Bool
  | [] => true
  | (_, j) :: rest => isWritable j && fieldsWritable rest

end

mutual

/-- A value that can be shown as messages show it. -/
def shown : Json → String
  | .null => "None"
  | .bool true => "True"
  | .bool false => "False"
  | .int n => toString n
  | .real x => Shortest.text x
  | .text t => Quoted.shown t
  | .list items => "[" ++ String.intercalate ", " (shownItems items) ++ "]"
  | .object fields => "\x7b" ++ String.intercalate ", " (shownFields fields) ++ "\x7d"

def shownItems : List Json → List String
  | [] => []
  | j :: js => shown j :: shownItems js

def shownFields : List (Text × Json) → List String
  | [] => []
  | (name, j) :: rest => (Quoted.shown name ++ ": " ++ shown j) :: shownFields rest

end

end Json

end PropAtlas
