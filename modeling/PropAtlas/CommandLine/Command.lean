import PropAtlas.CommandLine.Options
import PropAtlas.Json.Write
import PropAtlas.Query.Shorthand
import PropAtlas.Session.Analyzer

/-!
The command line of the analyzer: one request, answered on standard output as JSON.
-/

namespace PropAtlas.CommandLine

open Session

inductive Command where
  | analyze
  | usage
  | declarations
  | audit
  | query
  deriving DecidableEq, Repr

namespace Command

def all : List Command := [.analyze, .usage, .declarations, .audit, .query]

def name : Command → String
  | .analyze => "analyze_jsx_props"
  | .usage => "find_prop_usage"
  | .declarations => "get_component_props"
  | .audit => "find_components_without_prop"
  | .query => "query_components"

def ofName? (s : String) : Option Command := all.find? (fun c => c.name == s)

end Command

structure Arguments where
  path : Option String := none
  component : Option String := none
  prop : Option String := none
  required : String := ""
  types : Bool := true
  format : Report.Format := .full
  columns : Bool := true
  places : Bool := false
  bounded : Bool := false
  depth : Option Int := none
  trusting : Bool := true
  criteria : List Query.Criterion := []
  logic : Query.Logic := .and

def readFormat (v : String) : Except String Report.Format := do
  let name ← oneOf (Report.Format.all.map Report.Format.name) v
  return (Report.Format.ofName? name).getD .full

def readLogic (v : String) : Except String Query.Logic := do
  let name ← oneOf [Query.Logic.and.name, Query.Logic.or.name] (LetterCase.upper v)
  return if name == Query.Logic.or.name then .or else .and

def readCriterion (v : String) : Except String Query.Criterion :=
  (Query.Shorthand.read v).mapError Query.Shorthand.Fault.message

namespace Arguments

def pathSwitch : Switch Arguments := text "--path" (fun v a => { a with path := some v })

def componentSwitch : Switch Arguments :=
  text "--component-name" (fun v a => { a with component := some v })

def propSwitch : Switch Arguments := text "--prop-name" (fun v a => { a with prop := some v })

def layoutSwitches : List (Switch Arguments) :=
  [flag "--no-columns" (fun a => { a with columns := false }),
    flag "--pretty-paths" (fun a => { a with places := true })]

def formatSwitch : Switch Arguments :=
  reading "--format" readFormat (fun f a => { a with format := f })

def reachSwitches : List (Switch Arguments) :=
  [flag "--respect-project-boundaries" (fun a => { a with bounded := true }),
    reading "--max-depth" wholeNumber (fun n a => { a with depth := some n })]

/-- The options of a command, in the order in which messages list them. -/
def switches (c : Command) : List (Switch Arguments) :=
  let own := match c with
    | .analyze =>
      [componentSwitch, propSwitch, flag "--no-types" (fun a => { a with types := false }),
        formatSwitch] ++ layoutSwitches ++ reachSwitches
    | .usage => [propSwitch.mandatory, componentSwitch, formatSwitch] ++ layoutSwitches
    | .declarations => [componentSwitch.mandatory]
    | .audit =>
      [componentSwitch.mandatory,
        (text "--required-prop" (fun v a => { a with required := v })).mandatory,
        flag "--no-assume-spread" (fun a => { a with trusting := false })]
    | .query =>
      [componentSwitch.mandatory,
        reading "--criterion" readCriterion (fun c a => { a with criteria := a.criteria ++ [c] }),
        reading "--logic" readLogic (fun l a => { a with logic := l })]
      ++ layoutSwitches ++ reachSwitches
  [helpSwitch, pathSwitch] ++ own

end Arguments

def program : String := "jsx-prop-analyzer"

/-- The options before the command: whether to tell what is being done. -/
def mainSwitches : List (Switch Bool) := [helpSwitch, flag "--verbose" (fun _ => true)]

/-- A command line that can be acted on. -/
structure Invocation where
  verbose : Bool
  command : Command
  arguments : Arguments

def readCommand (words : List String) : Except Stop Invocation := do
  let sorted ← sort program mainSwitches words
  let p ← run program true sorted { settings := false }
  match p.operands with
  | [] => .error (.usage program "the following arguments are required: command")
  | name :: rest =>
    match oneOf (Command.all.map Command.name) name with
    | .error m => .error (.usage program s!"argument command: {m}")
    | .ok _ =>
      let c := (Command.ofName? name).getD .analyze
      let q ← options s!"{program} {c.name}" (Arguments.switches c) {} rest
      checkExtras program (p.extras ++ q.extras)
      return ⟨p.settings, c, q.settings⟩

/-- The request that an invocation makes at a path. -/
def Invocation.request (i : Invocation) (path : String) : Request :=
  let a := i.arguments
  let style : Report.Style := ⟨a.columns, a.places⟩
  let format : Json := .string a.format.name
  let reach : Reach := ⟨path, if a.bounded then some true else none, a.depth⟩
  match i.command with
  | .analyze =>
    .analyze reach ⟨a.component.map Text.ofString, a.prop.map Text.ofString, a.types⟩ format style
  | .usage =>
    .usage (Text.ofString (a.prop.getD "")) path (a.component.map Text.ofString) format style
  | .declarations => .declarations (Text.ofString (a.component.getD "")) path
  | .audit =>
    .audit (Text.ofString (a.component.getD "")) (Text.ofString a.required) path a.trusting
  | .query =>
    .query reach (.string (a.component.getD "")) (.list (a.criteria.map Query.Criterion.toJson))
      (.string a.logic.name) style

/-- The real path that an invocation is about, or what is wrong with it. -/
def Invocation.target (i : Invocation) (h : Host) : Except String String :=
  let p := match i.arguments.path.filter (fun s => !s.isEmpty) with
    | some s => Path.ofString s
    | none => .absolute h.cwd
  match h.exists? p.text with
  | .error f => .error (f.message p.text)
  | .ok false => .error s!"Path does not exist: {p.text}"
  | .ok true => .ok (h.resolve p).text

def scanned (path : String) (r : Findings) : Log.Message :=
  ⟨.debug, s!"Scanned {path}: {r.analyzed} files analyzed, {r.skipped} skipped"⟩

/-- Acts on an invocation. What is wrong with a query is found before the path is looked at. -/
def Invocation.perform (i : Invocation) (a : Analyzer) (h : Host) :
    Except String (Answer × List Log.Message) := do
  if i.command = .query then
    let _ ← (Analyzer.plan (i.request "")).mapError Fault.message
  let path ← i.target h
  let p ← (Analyzer.plan (i.request path)).mapError Fault.message
  let r ← ((Analyzer.scan h p.reach p.selection).run.run a).1.mapError Fault.message
  let answer ← (p.conclude r).mapError Fault.message
  return (answer, [scanned path r])

/-- Runs a command line on a host. Without settings there is no outcome. -/
def runCommand (h : Host) (words : List String) : Except Host.NoHome Outcome :=
  match readCommand words with
  | .error stop => .ok stop.outcome
  | .ok i => do
    let threshold := Log.configured i.verbose (some "WARNING")
    let (config, warnings) ← Config.load h
    match i.perform (Analyzer.new config) h with
    | .error m =>
      return { exit := some 1, stderr := Log.lines threshold warnings ++ ["Error: " ++ m] }
    | .ok (answer, messages) =>
      return {
        exit := some 0
        stdout := answer.toJson.indented ++ "\n"
        stderr := Log.lines threshold (warnings ++ messages) }

end PropAtlas.CommandLine
