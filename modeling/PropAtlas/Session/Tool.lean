import PropAtlas.Session.Analyzer

/-!
Tools: requests as a client makes them. Their arguments are checked, paths against the directories
that may be read, and what goes wrong is part of the answer.
-/

namespace PropAtlas.Session

open Component (Selection)

/-- A call of a tool. An argument that is none was not given. -/
inductive Tool where
  | analyze (path : Option String) (bounded : Option Bool) (depth : Option Int)
      (selection : Selection) (format : Json) (style : Report.Style)
  | usage (prop : Option Text) (directory : Option String) (component : Option Text) (format : Json)
      (style : Report.Style)
  | declarations (component : Option Text) (directory : Option String)
  | audit (component required : Option Text) (directory : Option String) (trusting : Bool)
  | query (component criteria logic : Json) (directory : Option String) (bounded : Option Bool)
      (depth : Option Int) (style : Report.Style)

namespace Tool

inductive Fault where
  | path (fault : Config.PathFault)
  | request (fault : Session.Fault)

namespace Fault

def message : Fault → String
  | .path f => f.message
  | .request f => f.message

/-- Whether a fault is not made part of the answer, so that the call has none. -/
def escapes : Fault → Bool
  | .path (.noHome _) => true
  | _ => false

end Fault

def name : Tool → String
  | .analyze .. => "analyze_jsx_props"
  | .usage .. => "find_prop_usage"
  | .declarations .. => "get_component_props"
  | .audit .. => "find_components_without_prop"
  | .query .. => "query_components"

/-- An argument that has to say something. -/
def required (argument : String) (value : Option Text) : Except Fault Text :=
  match value with
  | some v => if Blank.isBlankText v then .error (.path (.blank argument)) else .ok v
  | none => .error (.path (.blank argument))

def pathOf (c : Config) (h : Host) (argument : String) (path : Option String) :
    Except Fault String :=
  (c.checkPath h argument path).mapError .path

/-- The request that a call makes. -/
def request (c : Config) (h : Host) : Tool → Except Fault Request
  | .analyze path bounded depth o format y => do
    let p ← pathOf c h "path" path
    return .analyze ⟨p, bounded, depth⟩ o format y
  | .usage prop directory component format y => do
    let name ← required "prop_name" prop
    let p ← pathOf c h "directory" directory
    return .usage name p component format y
  | .declarations component directory => do
    let name ← required "component_name" component
    let p ← pathOf c h "directory" directory
    return .declarations name p
  | .audit component prop directory trusting => do
    let name ← required "component_name" component
    let wanted ← required "required_prop" prop
    let p ← pathOf c h "directory" directory
    return .audit name wanted p trusting
  | .query component criteria logic directory bounded depth y => do
    let _ ← (Query.validate component criteria logic).mapError (fun r => .request (.criteria r))
    let p ← pathOf c h "directory" directory
    return .query ⟨p, bounded, depth⟩ component criteria logic y

/-- What a call says besides the answer to its request. -/
def heading : Tool → List (String × Json)
  | .usage prop .. => [("prop_name", .text (prop.getD []))]
  | .declarations component _ => [("component_name", .text (component.getD []))]
  | _ => []

def fields : Answer → List (String × Json)
  | .findings f y r => Report.shape f y r
  | .declarations ds =>
    [("components", (Answer.declarations ds).toJson), ("count", .nat ds.length)]
  | .audit r => Report.audit r
  | .query q places ms files => Answer.query.fields q places ms files

def refusal (t : Tool) (f : Fault) : Json :=
  .record [("ok", .bool false), ("error", .string (t.name ++ " failed")),
    ("detail", .string f.message)]

/-- The answer to a call, if there is one. -/
def reply (t : Tool) : Except Fault Answer → Except Fault Json
  | .ok a => .ok (.record (("ok", .bool true) :: heading t ++ fields a))
  | .error f => if f.escapes then .error f else .ok (refusal t f)

def call (t : Tool) (a : Analyzer) (h : Host) : Except Fault Answer × Analyzer :=
  match t.request a.config h with
  | .error f => (.error f, a)
  | .ok q =>
    let (r, b) := a.ask h q
    (r.mapError .request, b)

end Tool

end PropAtlas.Session
