import Mathlib.Data.List.Forall2
import PropAtlas.Query.Criterion

/-! The rules of a query: what may stand at each place of its arguments, and which of two broken rules comes
first. -/

namespace PropAtlas

namespace Query

/-! ### What may stand where -/

/-- A value that counts as absent. -/
inductive Falsy : Json → Prop where
  | null : Falsy .null
  | false : Falsy (.bool false)
  | int : Falsy (.int 0)
  | real (negative : Bool) (exponent : Int) : Falsy (.real (.finite negative 0 exponent))
  | text : Falsy (.text [])
  | list : Falsy (.list [])
  | object : Falsy (.object [])

/-- A component is named by a text that is not blank. Half of a surrogate pair is no blank. -/
def GivesComponent (v : Option Json) (t : Text) : Prop :=
  v = some (.text t) ∧ ∃ p ∈ t, ¬ ∃ c, p = CodePoint.ofChar c ∧ Blank.isBlank c = true

/-- A logic is named by its letters in any case. -/
def GivesLogic (v : Option Json) (l : Logic) : Prop :=
  ∃ s, v = some (.string s) ∧ s.toList.map Char.toUpper = l.name.toList

def GivesList (v : Option Json) (items : List Json) : Prop :=
  v = some .null ∧ items = [] ∨ v = some (.list items)

def GivesName (v : Option Json) (t : Text) : Prop := v = some (.text t) ∧ t ≠ []

def GivesOperator (v : Option Json) (o : Operator) : Prop :=
  v = some (.string o.name) ∨ (∀ j ∈ v, Falsy j) ∧ o = .equals

/-- A field that may be missing or null. -/
def GivesOptional {α : Type} (encode : α → Json) (v : Option Json) (a : Option α) : Prop :=
  v = a.map encode ∨ v = some .null ∧ a = none

/-- What may stand at the place of a fault. -/
def Legal : Fault → Option Json → Prop
  | .component, v => ∃ t, GivesComponent v t
  | .logic _, v => ∃ l, GivesLogic v l
  | .notList, v => ∃ items, GivesList v items
  | .notObject _ _, v => ∃ fields, v = some (.object fields)
  | .name _, v => ∃ t, GivesName v t
  | .operator _ _, v => ∃ o, GivesOperator v o
  | .value _, v => ∃ a, GivesOptional Scalar.toJson v a
  | .present _, v => ∃ b, GivesOptional Json.bool v b

/-- An object describes a criterion. -/
structure Describes (j : Json) (c : Criterion) : Prop where
  object : ∃ fields, j = .object fields
  name : GivesName (j.field? "name") c.name
  operator : GivesOperator (j.field? "operator") c.operator
  value : GivesOptional Scalar.toJson (j.field? "value") c.value
  present : GivesOptional Json.bool (j.field? "exists") c.present

/-- The arguments ask a question. -/
structure Asks (component criteria logic : Json) (q : Question) : Prop where
  component : GivesComponent (some component) q.component
  logic : GivesLogic (some logic) q.logic
  criteria : ∃ items, GivesList (some criteria) items ∧ List.Forall₂ Describes items q.criteria

/-! ### Places and their order -/

/-- A step into a value. -/
inductive Step where
  | field (name : String)
  | index (i : Nat)

def Step.text : Step → String
  | .field name => "." ++ name
  | .index i => s!"[{i}]"

end Query

namespace Json

def child? (j : Json) : Query.Step → Option Json
  | .field name => j.field? name
  | .index i =>
    match j with
    | .list items => items[i]?
    | _ => none

/-- The value at the end of a way. -/
def at? (j : Json) : List Query.Step → Option Json
  | [] => some j
  | step :: way => (j.child? step).bind (·.at? way)

/-- A way can be gone to its end, where only a field may be missing. -/
def HasWay (j : Json) : List Query.Step → Prop
  | [] => True
  | [.field _] => ∃ fields, j = .object fields
  | step :: way => ∃ k, j.child? step = some k ∧ k.HasWay way

end Json

namespace Query

/-- The arguments of a query as one value. -/
def query (component criteria logic : Json) : Json :=
  .record [("component_name", component), ("prop_criteria", criteria), ("logic", logic)]

namespace Fault

/-- The place that a fault is about. -/
def place : Fault → List Step
  | .component => [.field "component_name"]
  | .logic _ => [.field "logic"]
  | .notList => [.field "prop_criteria"]
  | .notObject i _ => [.field "prop_criteria", .index i]
  | .name i => [.field "prop_criteria", .index i, .field "name"]
  | .operator i _ => [.field "prop_criteria", .index i, .field "operator"]
  | .value i => [.field "prop_criteria", .index i, .field "value"]
  | .present i => [.field "prop_criteria", .index i, .field "exists"]

/-- The value that a fault is about, if it keeps one. -/
def given? : Fault → Option Json
  | .logic j | .notObject _ j | .operator _ j => some j
  | _ => none

/-- The value that stands in the message; of one that is no object only the type does. -/
def quoted? : Fault → Option Json
  | .logic j | .operator _ j => some j
  | _ => none

/-- The order of the rules: the arguments first, then each element with its fields. -/
def position : Fault → Nat
  | .component => 0
  | .logic _ => 1
  | .notList => 2
  | .notObject i _ => 5 * i + 3
  | .name i => 5 * i + 4
  | .operator i _ => 5 * i + 5
  | .value i => 5 * i + 6
  | .present i => 5 * i + 7

end Fault

/-- A value that stands, or is missing, at the place of a fault breaks its rule. -/
structure BrokenBy (v : Option Json) (f : Fault) : Prop where
  illegal : ¬ Legal f v
  given : ∀ j ∈ f.given?, v = some j

theorem BrokenBy.eq_of_given {v : Option Json} {f g : Fault} {j k : Json} (hf : BrokenBy v f)
    (hg : BrokenBy v g) (hj : f.given? = some j) (hk : g.given? = some k) : j = k := by
  have hv := hf.given j hj
  rw [hg.given k hk] at hv
  exact (Option.some.inj hv).symm

/-- A query breaks the rule of a fault. -/
structure Broken (q : Json) (f : Fault) : Prop where
  way : q.HasWay f.place
  broken : BrokenBy (q.at? f.place) f

/-- A value breaks the one rule that some faults are about. -/
def Breaks (make : Json → Fault) (v : Option Json) (f : Fault) : Prop :=
  ∃ j, f = make j ∧ BrokenBy v f

/-- No broken rule comes earlier. -/
def First (broken : Fault → Prop) (f : Fault) : Prop :=
  broken f ∧ ∀ g, broken g → f.position ≤ g.position

end Query

end PropAtlas
