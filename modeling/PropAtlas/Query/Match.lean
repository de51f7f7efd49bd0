import PropAtlas.Component.Basic
import PropAtlas.Query.Criterion

/-!
Queries over the instances of a component. An instance is an element that uses it or, on lines
without such an element, a declaration of it.
-/

namespace PropAtlas.Query

/-! ### Criteria on one instance -/

/-- The value of a prop as criteria see it; a prop without one has the empty text. -/
def valueText (u : PropUsage) : Text := u.value.getD []

/-- What one criterion says about the props of an instance. -/
structure Verdict where
  passed : Bool
  /-- The prop that is there. -/
  usage : Option PropUsage
  /-- Whether the criterion failed because the prop is not there. -/
  missing : Bool

def Criterion.verdict (c : Criterion) (props : Table Text PropUsage) : Verdict :=
  let usage := props.get? c.name
  match c.present with
  | some wanted => ⟨wanted == usage.isSome, usage, wanted && usage.isNone⟩
  | none =>
    match c.value, usage with
    | some v, some u =>
      let ok := match c.operator with
        | .equals => valueText u == v.spelled
        | .contains => (valueText u).hasPart v.spelled
      ⟨ok, usage, false⟩
    | some _, none => ⟨false, none, true⟩
    | none, some u => ⟨true, some u, false⟩
    | none, none => ⟨false, none, true⟩

structure Detail where
  value : Text
  line : Int
  column : Option Int
  deriving DecidableEq, Repr

structure Outcome where
  matched : Bool
  matching : Table Text Detail
  missing : List Text

-- Without criteria everything matches, also for `or`.
def Logic.holds (l : Logic) (results : List Bool) : Bool :=
  match l with
  | .and => results.all id
  | .or => results.isEmpty || results.any id

def detail (columns : Bool) (u : PropUsage) : Detail :=
  ⟨valueText u, u.line, if columns then some u.column else none⟩

def evaluate (props : Table Text PropUsage) (criteria : List Criterion) (logic : Logic)
    (columns : Bool) : Outcome :=
  let verdicts := criteria.map (fun c => (c.name, c.verdict props))
  { matched := logic.holds (verdicts.map (·.2.passed))
    matching := Table.ofList (verdicts.filterMap (fun (name, v) =>
      if v.passed then v.usage.map (fun u => (name, detail columns u)) else none))
    missing := (verdicts.filter (·.2.missing)).map (·.1) }

/-- Whether a criterion compares a prop that is there with a value that cannot be written. -/
def Criterion.isStuck (c : Criterion) (props : Table Text PropUsage) : Bool :=
  c.present.isNone && c.value.any (fun v => !v.isWritable) && props.has c.name

/-! ### Instances -/

/-- An element that uses a component, or a declaration of it. -/
structure Instance where
  component : String
  file : String
  line : Int
  column : Int
  props : Table Text PropUsage
  hasSpread : Bool

/-- The props of an instance by name, the last one of a name; spreads have no name. -/
def indexProps (usages : List PropUsage) : Table Text PropUsage :=
  Table.ofList ((usages.filter (fun u => !u.spread)).map (fun u => (Text.ofString u.name, u)))

def Instance.ofDeclaration (d : Declaration) : Instance :=
  ⟨d.component, d.file, d.line, d.column, indexProps d.props, d.props.any (·.spread)⟩

def Instance.ofSite (s : Site) : Instance :=
  ⟨s.component, s.file, s.line, s.column, indexProps s.props, s.hasSpread⟩

/-- Where an instance is kept: declarations before all elements of their line. -/
abbrev Place : Type := String × Int × Int

def Place.before (a b : Place) : Bool :=
  a.1 < b.1 || (a.1 == b.1 && (a.2.1 < b.2.1 || (a.2.1 == b.2.1 && a.2.2 ≤ b.2.2)))

def declarationPlace (file : String) (line : Int) : Place := (file, line, -1)

/-- The declarations of a component by place, the last one of a line. -/
def declared (ds : List Declaration) (component : Text) : Table Place Instance :=
  Table.ofList ((ds.filter (fun d => Text.ofString d.component == component)).map (fun d =>
    (declarationPlace d.file d.line, Instance.ofDeclaration d)))

/-- Adds a site, which takes the place of a declaration on its line. -/
def addSite (t : Table Place Instance) (s : Site) : Table Place Instance :=
  (t.drop (declarationPlace s.file s.line)).put (s.file, s.line, s.column) (Instance.ofSite s)

def instances (ds : List Declaration) (ss : List Site) (component : Text) : List Instance :=
  let all := (ss.filter (fun s => s.isNamed component)).foldl addSite (declared ds component)
  (all.mergeSort (fun a b => Place.before a.1 b.1)).map (·.2)

/-! ### Matches -/

structure Match where
  component : String
  file : String
  line : Int
  column : Option Int
  matching : Table Text Detail
  missing : List Text
  props : Table Text Text
  hasSpread : Bool

def matchOf (criteria : List Criterion) (logic : Logic) (columns : Bool) (i : Instance) :
    Option Match :=
  let o := evaluate i.props criteria logic columns
  if o.matched then
    some {
      component := i.component, file := i.file, line := i.line
      column := if columns then some i.column else none
      matching := o.matching, missing := o.missing
      props := i.props.map (fun (name, u) => (name, valueText u))
      hasSpread := i.hasSpread }
  else none

def run (ds : List Declaration) (ss : List Site) (component : Text) (criteria : List Criterion)
    (logic : Logic) (columns : Bool) : List Match :=
  (instances ds ss component).filterMap (matchOf criteria logic columns)

/-- The matches of a query; there are none if a value has to be compared that cannot be written. -/
def search (ds : List Declaration) (ss : List Site) (q : Question) (columns : Bool) :
    Option (List Match) :=
  if (instances ds ss q.component).any (fun i => q.criteria.any (fun c => c.isStuck i.props)) then none
  else some (run ds ss q.component q.criteria q.logic columns)

end PropAtlas.Query
