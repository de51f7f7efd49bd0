import PropAtlas.CommandLine.Options
import PropAtlas.Config
import PropAtlas.Json.Write

/-!
The command line of the server, which offers the analyzer as tools. Options replace the environment
variables of the same meaning; then the settings are read, and the server is started or its settings
are printed.
-/

namespace PropAtlas.CommandLine.Server

inductive Transport where
  | stdio
  | http
  | sse
  deriving DecidableEq, Repr

namespace Transport

def all : List Transport := [.stdio, .http, .sse]

def name : Transport → String
  | .stdio => "stdio"
  | .http => "http"
  | .sse => "sse"

end Transport

structure Arguments where
  sourcePath : Option String := none
  allowedRoots : Option String := none
  bounded : Bool := false
  depth : Option Int := none
  workers : Option Int := none
  cached : Bool := true
  verbose : Bool := false
  printConfig : Bool := false
  transport : Transport := .stdio
  host : String := "127.0.0.1"
  port : Int := 8000
  path : String := "/mcp"

def readTransport (v : String) : Except String Transport := do
  let name ← oneOf (Transport.all.map Transport.name) v
  return (Transport.all.find? (fun t => t.name == name)).getD .stdio

/-- The options, in the order in which messages list them. -/
def switches : List (Switch Arguments) :=
  [helpSwitch,
    text "--source-path" (fun v a => { a with sourcePath := some v }),
    text "--allowed-roots" (fun v a => { a with allowedRoots := some v }),
    flag "--respect-project-boundaries" (fun a => { a with bounded := true }),
    reading "--max-depth" wholeNumber (fun n a => { a with depth := some n }),
    reading "--max-workers" wholeNumber (fun n a => { a with workers := some n }),
    flag "--no-cache" (fun a => { a with cached := false }),
    flag "--verbose" (fun a => { a with verbose := true }),
    flag "--print-config" (fun a => { a with printConfig := true }),
    reading "--transport" readTransport (fun t a => { a with transport := t }),
    text "--mcp-host" (fun v a => { a with host := v }),
    reading "--mcp-port" wholeNumber (fun n a => { a with port := n }),
    text "--mcp-path" (fun v a => { a with path := v })]

def program : String := "jsx-prop-lookup"

def readArguments (words : List String) : Except Stop Arguments := do
  let p ← options program switches {} words
  checkExtras program p.extras
  return p.settings

/-- The variables that the options replace. -/
def Arguments.overrides (a : Arguments) : List (String × String) :=
  let given (name : String) (v : Option String) : List (String × String) :=
    (v.map (fun s => (name, s))).toList
  let nonEmpty (v : Option String) : Option String := v.filter (fun s => !s.isEmpty)
  let on (name value : String) (b : Bool) : List (String × String) :=
    if b then [(name, value)] else []
  given "JSX_SOURCE_PATH" (nonEmpty a.sourcePath)
  ++ given "ALLOWED_ROOTS" (nonEmpty a.allowedRoots)
  ++ on "RESPECT_PROJECT_BOUNDARIES" "true" a.bounded
  ++ given "ANALYZER_MAX_DEPTH" (a.depth.map toString)
  ++ given "ANALYZER_MAX_WORKERS" (a.workers.map toString)
  ++ on "ANALYZER_CACHE_ENABLED" "false" (!a.cached)
  ++ on "ANALYZER_LOG_LEVEL" "DEBUG" a.verbose

/-- The host with the variables that the options replace. -/
def Arguments.apply (a : Arguments) (h : Host) : Host :=
  { h with env := a.overrides.foldl (fun t (name, v) => t.put name v) h.env }

/-- The tools that the server offers, with what they are said to do. -/
def tools : List (String × String) :=
  [("analyze_jsx_props",
      "Analyze JSX/TSX component declarations and prop usages in a file or directory"),
    ("find_prop_usage", "Find all usages of a specific prop, optionally on one component"),
    ("get_component_props", "Get the declared props of a component"),
    ("find_components_without_prop",
      "Find JSX instances of a component that are missing a required prop"),
    ("query_components",
      "Query component instances by prop values, presence or absence (AND/OR)")]

def Arguments.startOptions (a : Arguments) : List (String × Json) :=
  let address : List (String × Json) :=
    [("transport", .string a.transport.name), ("host", .string a.host), ("port", .int a.port)]
  match a.transport with
  | .stdio => []
  | .http => address ++ [("path", .string a.path)]
  | .sse => address

/-- What becomes of a command line: an outcome, and what the server is started with if it is. -/
structure Launch where
  outcome : Outcome
  started : Option (List (String × Json)) := none

def greeting (c : Config) : List Log.Message :=
  (if c.allowedRoots.isEmpty then
    [⟨.warning, "ALLOWED_ROOTS is not configured; tools may read any path."⟩] else [])
  ++ (c.sourcePath.map (fun p => (⟨.info, "Source path: " ++ p⟩ : Log.Message))).toList
  ++ [⟨.info, s!"Registered {tools.length} tools."⟩]

/-- Runs a command line on a host. Without settings there is no outcome. -/
def launch (h : Host) (words : List String) : Except Host.NoHome Launch :=
  match readArguments words with
  | .error stop => .ok { outcome := stop.outcome }
  | .ok a => do
    let h := a.apply h
    let threshold := Log.configured a.verbose (h.env.get? "ANALYZER_LOG_LEVEL")
    let (config, warnings) ← Config.load h
    if a.printConfig then
      return {
        outcome := { exit := none, stdout := config.toJson.indented ++ "\n"
                     stderr := Log.lines threshold warnings } }
    else
      return {
        outcome := { exit := none, stderr := Log.lines threshold (warnings ++ greeting config) }
        started := some a.startOptions }

end PropAtlas.CommandLine.Server
