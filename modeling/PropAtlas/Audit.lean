import PropAtlas.Component.Basic
import PropAtlas.Number.Double

/-!
Audits: which elements that use a component do not pass a prop they should pass.
-/

namespace PropAtlas.Audit

/-- An element that lacks the prop, with the names of those it has. -/
structure Lacking where
  component : String
  file : String
  line : Int
  column : Int
  existing : List String
  deriving DecidableEq, Repr

structure Report where
  component : Text
  required : Text
  lacking : List Lacking
  /-- How many elements use the component. -/
  total : Nat
  deriving DecidableEq, Repr

def propNames (s : Site) : List String :=
  s.props.map (fun u => if u.spread then spreadProp else u.name)

/-- Whether an element passes a prop. An object spread into it may hold the prop: `trusting` says
whether it is taken to. -/
def passes (required : Text) (trusting : Bool) (s : Site) : Bool :=
  ((propNames s).map Text.ofString).contains required || (trusting && s.hasSpread)

def lackingOf (s : Site) : Lacking :=
  ⟨s.component, s.file, s.line, s.column, propNames s⟩

def run (sites : List Site) (component required : Text) (trusting : Bool) : Report :=
  let named := sites.filter (fun s => s.isNamed component)
  { component, required
    lacking := (named.filter (fun s => !passes required trusting s)).map lackingOf
    total := named.length }

/-- The share of elements that lack the prop, in percent with two places. There is none if no element
uses the component. -/
def Report.percentage (r : Report) : Option Double :=
  if r.total = 0 then none
  else some (((Double.ofRatio false r.lacking.length r.total).scale 100).roundPlaces 2)

end PropAtlas.Audit
