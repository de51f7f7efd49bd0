import PropAtlas.Json.Basic
import PropAtlas.Text.Blank
import PropAtlas.Text.LetterCase

/-!
Criteria: conditions on one prop of a component. A query is asked in JSON values of any type, and is
checked as a whole before anything is read: the first rule that is broken is the one reported.
-/

namespace PropAtlas

/-- A value that can be shown as it would be spelled in markup: nothing for null, whole numbers without
a fraction, and everything else as messages show it. -/
def Json.spelled : Json → Text
  | .null => []
  | .bool true => Text.ofString "true"
  | .bool false => Text.ofString "false"
  | .text t => t
  | .real x =>
    match x.toInt? with
    | some n => Text.ofString (toString n)
    | none => Text.ofString (Shortest.text x)
  | j => Text.ofString j.shown

namespace Query

inductive Scalar where
  | text (t : Text)
  | int (n : Int)
  | real (x : Double)
  | bool (b : Bool)
  deriving DecidableEq, Repr

namespace Scalar

def toJson : Scalar → Json
  | .text t => .text t
  | .int n => .int n
  | .real x => .real x
  | .bool b => .bool b

def ofJson? : Json → Option Scalar
  | .text t => some (.text t)
  | .int n => some (.int n)
  | .real x => some (.real x)
  | .bool b => some (.bool b)
  | _ => none

def isWritable (s : Scalar) : Bool := s.toJson.isWritable

def spelled (s : Scalar) : Text := s.toJson.spelled

end Scalar

inductive Operator where
  | equals
  | contains
  deriving DecidableEq, Repr

def Operator.name : Operator → String
  | .equals => "equals"
  | .contains => "contains"

/-- Whether all criteria have to hold, or one of them. -/
inductive Logic where
  | and
  | or
  deriving DecidableEq, Repr

def Logic.name : Logic → String
  | .and => "AND"
  | .or => "OR"

/-- A condition on one prop: that it is there or not, or that its value equals or contains a text. With
neither, the prop has to be there. -/
structure Criterion where
  name : Text
  value : Option Scalar := none
  operator : Operator := .equals
  present : Option Bool := none
  deriving DecidableEq, Repr

def Criterion.toJson (c : Criterion) : Json :=
  .record ([("name", .text c.name), ("operator", .string c.operator.name)]
    ++ (c.value.map (fun v => ("value", v.toJson))).toList
    ++ (c.present.map (fun b => ("exists", .bool b))).toList)

structure Question where
  component : Text
  criteria : List Criterion
  logic : Logic
  deriving DecidableEq, Repr

/-! ### Checking a query -/

/-- What is wrong with a query. -/
inductive Fault where
  | component
  | logic (given : Json)
  | notList
  | notObject (index : Nat) (given : Json)
  | name (index : Nat)
  | operator (index : Nat) (given : Json)
  | value (index : Nat)
  | present (index : Nat)

namespace Fault

/-- Where a query is wrong. -/
def field : Fault → String
  | .component => "component_name"
  | .logic _ => "logic"
  | .notList => "prop_criteria"
  | .notObject i _ => s!"prop_criteria[{i}]"
  | .name i => s!"prop_criteria[{i}].name"
  | .operator i _ => s!"prop_criteria[{i}].operator"
  | .value i => s!"prop_criteria[{i}].value"
  | .present i => s!"prop_criteria[{i}].exists"

def reason : Fault → String
  | .component => "is required and must be non-empty"
  | .logic j => s!"must be 'AND' or 'OR', got {j.shown}"
  | .notList => "must be a list"
  | .notObject _ j => s!"must be an object with a 'name', got {j.typeName}"
  | .name _ => "is required and must be non-empty"
  | .operator _ j => s!"must be 'equals' or 'contains', got {j.shown}"
  | .value _ => "must be a string, number or boolean"
  | .present _ => "must be a boolean"

def message (f : Fault) : String := s!"{f.field}: {f.reason}"

def isWritable : Fault → Bool
  | .logic j | .operator _ j => j.isWritable
  | _ => true

end Fault

/-- How a query is refused. If the value that a message would show cannot be written, there is no message
about the query. -/
inductive Refusal where
  | criteria (fault : Fault)
  | digits

def Refusal.message : Refusal → String
  | .criteria f => f.message
  | .digits => WholeNumber.tooLong

def Fault.refusal (f : Fault) : Refusal := if f.isWritable then .criteria f else .digits

/-- The string that a value is, unless it holds a surrogate. -/
def string? : Json → Option String
  | .text t => t.toString?
  | _ => none

def checkComponent : Json → Except Fault Text
  | .text t => if Blank.isBlankText t then .error .component else .ok t
  | _ => .error .component

-- A text with a surrogate is not the name of a logic in any case.
def checkLogic (j : Json) : Except Fault Logic :=
  match (string? j).map LetterCase.upper with
  | some "AND" => .ok .and
  | some "OR" => .ok .or
  | _ => .error (.logic j)

def checkName (i : Nat) : Option Json → Except Fault Text
  | some (.text t) => if t.isEmpty then .error (.name i) else .ok t
  | _ => .error (.name i)

/-- The operator by its name; one that counts as absent means equality. -/
def checkOperator (i : Nat) (j : Option Json) : Except Fault Operator :=
  match j with
  | none => .ok .equals
  | some g =>
    if g.isEmptyish then .ok .equals
    else
      match string? g with
      | some "equals" => .ok .equals
      | some "contains" => .ok .contains
      | _ => .error (.operator i g)

def checkValue (i : Nat) (j : Option Json) : Except Fault (Option Scalar) :=
  match j with
  | none | some .null => .ok none
  | some g =>
    match Scalar.ofJson? g with
    | some v => .ok (some v)
    | none => .error (.value i)

def checkPresent (i : Nat) (j : Option Json) : Except Fault (Option Bool) :=
  match j with
  | none | some .null => .ok none
  | some (.bool b) => .ok (some b)
  | some _ => .error (.present i)

def checkCriterion (i : Nat) (j : Json) : Except Fault Criterion :=
  match j with
  | .object _ => do
    let name ← checkName i (j.field? "name")
    let operator ← checkOperator i (j.field? "operator")
    let value ← checkValue i (j.field? "value")
    let present ← checkPresent i (j.field? "exists")
    return { name, operator, value, present }
  | _ => .error (.notObject i j)

def checkCriteria (i : Nat) : List Json → Except Fault (List Criterion)
  | [] => .ok []
  | j :: js => do
    let c ← checkCriterion i j
    let cs ← checkCriteria (i + 1) js
    return c :: cs

/-- The criteria of a query; null stands for none. -/
def checkList : Json → Except Fault (List Criterion)
  | .null => .ok []
  | .list js => checkCriteria 0 js
  | _ => .error .notList

/-- The query that is asked, or the first thing wrong with it. -/
def check (component criteria logic : Json) : Except Fault Question := do
  let c ← checkComponent component
  let l ← checkLogic logic
  let cs ← checkList criteria
  return ⟨c, cs, l⟩

def validate (component criteria logic : Json) : Except Refusal Question :=
  (check component criteria logic).mapError Fault.refusal

end Query

end PropAtlas
