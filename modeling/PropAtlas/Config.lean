import PropAtlas.FileSystem.Host
import PropAtlas.Json.Basic
import PropAtlas.Log
import PropAtlas.Text.Blank
import PropAtlas.Text.WholeNumber

/-!
Settings, read from environment variables. A number that cannot be used is reported and replaced by
its default.
-/

namespace PropAtlas

structure Config where
  /-- The directory that relative paths are read from, the working directory if there is none. -/
  sourcePath : Option String := none
  /-- The directories that may be read, any if there are none. -/
  allowedRoots : List Path := []
  bounded : Bool := false
  maxDepth : Option Int := none
  cacheEnabled : Bool := true
  cacheSize : Int := 1000
  workers : Int := 8
  logLevel : String := "INFO"
  deriving DecidableEq, Repr

namespace Config

def yesWords : List String := ["true", "1", "yes", "on"]

def switch (value : Option String) (default : Bool) : Bool :=
  match value with
  | none => default
  | some v => yesWords.contains (LetterCase.lower v)

def leastNumber : Int := 1

def ignored (name value why : String) : Log.Message :=
  ⟨.warning, s!"Ignoring {name}={Quoted.shownString value} ({why})"⟩

/-- A setting that is a number, and what is wrong with it. -/
def number (h : Host) (name : String) : Option Int × List Log.Message :=
  match h.env.get? name with
  | none => (none, [])
  | some v =>
    if Blank.isEmpty v then (none, [])
    else
      match WholeNumber.read? v with
      | none => (none, [ignored name v "not an integer"])
      | some n =>
        if n < leastNumber then (none, [ignored name v s!"must be >= {leastNumber}"])
        else (some n, [])

def commaPieces (text : String) : List String := text.splitOn ","

/-- Adds a directory unless it is there. -/
def addRoot (roots : List Path) (p : Path) : List Path :=
  if roots.contains p then roots else roots ++ [p]

/-- The directories of a list with commas, each once. -/
def rootsOf (h : Host) (value : Option String) : Except Host.NoHome (List Path) := do
  let items := ((commaPieces (value.getD "")).map Blank.strip).filter (fun s => !s.isEmpty)
  let paths ← items.mapM h.resolveText
  return paths.foldl addRoot []

/-- The settings of the environment, and the numbers that were ignored. -/
def load (h : Host) : Except Host.NoHome (Config × List Log.Message) := do
  let roots ← rootsOf h (h.env.get? "ALLOWED_ROOTS")
  let depth := number h "ANALYZER_MAX_DEPTH"
  let size := number h "ANALYZER_CACHE_MAX_SIZE"
  let workers := number h "ANALYZER_MAX_WORKERS"
  return ({
     sourcePath := (h.env.get? "JSX_SOURCE_PATH").filter (fun s => !s.isEmpty)
     allowedRoots := roots
     bounded := switch (h.env.get? "RESPECT_PROJECT_BOUNDARIES") false
     maxDepth := depth.1
     cacheEnabled := switch (h.env.get? "ANALYZER_CACHE_ENABLED") true
     cacheSize := size.1.getD 1000
     workers := workers.1.getD 8
     logLevel := LetterCase.upper ((h.env.get? "ANALYZER_LOG_LEVEL").getD "INFO") },
    depth.2 ++ size.2 ++ workers.2)

def allow (c : Config) (h : Host) (path : String) : Except Host.NoHome Config := do
  let root ← h.resolveText path
  return { c with allowedRoots := addRoot c.allowedRoots root }

-- The directory that relative paths are read from is not looked at for others.
def resolve (c : Config) (h : Host) (path : String) : Except Host.NoHome Path := do
  let p ← h.expandHome (Path.ofString path)
  match c.sourcePath with
  | none => return h.resolve p
  | some base =>
    if p.anchor = .here then
      let b ← h.expandHome (Path.ofString base)
      return h.resolve (b.join p)
    else return h.resolve p

def allows (c : Config) (h : Host) (p : Path) : Bool :=
  c.allowedRoots.isEmpty || c.allowedRoots.any (fun r => r.contains (h.resolve p))

def toJson (c : Config) : Json :=
  .record [("source_path", (c.sourcePath.map .string).getD .null),
    ("allowed_roots", .strings (c.allowedRoots.map Path.text)),
    ("respect_project_boundaries", .bool c.bounded),
    ("max_depth", (c.maxDepth.map .int).getD .null),
    ("cache_enabled", .bool c.cacheEnabled), ("cache_max_size", .int c.cacheSize),
    ("max_workers", .int c.workers), ("log_level", .string c.logLevel)]

/-! ### Path arguments -/

inductive PathFault where
  | blank (argument : String)
  | noHome (fault : Host.NoHome)
  | missing (path : String)
  | outside (path : String) (roots : List Path)
  | unreadable (path : String) (fault : FileSystem.Fault)
  deriving DecidableEq, Repr

def PathFault.message : PathFault → String
  | .blank a => s!"{a} is required and must be a non-empty string"
  | .noHome f => f.message
  | .missing p => s!"Path does not exist: {p}"
  | .outside p roots =>
    let shown := String.intercalate ", " (roots.map Path.text)
    s!"Path is outside allowed roots: {p} (allowed: {shown})"
  | .unreadable p f => f.message p

/-- The real path of an argument, if it exists and may be read. -/
def checkPath (c : Config) (h : Host) (argument : String) (path : Option String) :
    Except PathFault String :=
  match path with
  | none => .error (.blank argument)
  | some p =>
    if Blank.isEmpty p then .error (.blank argument)
    else if p.toList.contains '\x00' then .error (.unreadable p .zero)
    else
      match c.resolve h p with
      | .error f => .error (.noHome f)
      | .ok r =>
        match h.exists? r.text with
        | .error f => .error (.unreadable r.text f)
        | .ok false => .error (.missing p)
        | .ok true => if c.allows h r then .ok r.text else .error (.outside p c.allowedRoots)

end Config

end PropAtlas
