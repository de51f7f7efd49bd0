import PropAtlas.Config
import PropAtlas.FileSystem.Discovery
import PropAtlas.Report.Shape
import PropAtlas.Session.Cache
import PropAtlas.SourceFile

/-!
An analyzer answers requests about the source files of a host. It remembers the analysis of each
version of a file, so that a file that did not change is read once.
-/

namespace PropAtlas.Session

open Component (Selection)
open FileSystem (Scope)

/-! ### Requests and answers -/

/-- Where to look. What is left out is taken from the settings. -/
structure Reach where
  path : String
  bounded : Option Bool := none
  depth : Option Int := none

inductive Request where
  /-- Declarations and usages, in a format that is named by any value. -/
  | analyze (reach : Reach) (selection : Selection) (format : Json) (style : Report.Style)
  | declarations (component : Text) (directory : String)
  | audit (component required : Text) (directory : String) (trusting : Bool)
  | query (reach : Reach) (component criteria logic : Json) (style : Report.Style)

def Request.usage (prop : Text) (directory : String) (component : Option Text) (format : Json)
    (style : Report.Style) : Request :=
  .analyze { path := directory } { component, prop := some prop } format style

inductive Fault where
  | format (given : Json)
  | criteria (refusal : Query.Refusal)
  | access (path : String) (fault : FileSystem.Fault)
  | marker (path : String) (fault : FileSystem.Fault)
  /-- A value that criteria compare with cannot be written. -/
  | digits

namespace Fault

def ofSearch (path : String) : FileSystem.SearchFault → Fault
  | .root f => .access path f
  | .marker p f => .marker p f

def message : Fault → String
  | .format given => Report.Format.unknown given
  | .criteria r => r.message
  | .access _ .zero => FileSystem.Fault.zero.reason
  | .access path f => s!"Cannot access path: {path} - {f.reason}"
  | .marker path f => f.message path
  | .digits => WholeNumber.tooLong

end Fault

inductive Answer where
  | findings (format : Report.Format) (style : Report.Style) (r : Findings)
  | declarations (ds : List Declaration)
  | audit (r : Audit.Report)
  /-- `files` is the number of files with findings. -/
  | query (question : Query.Question) (places : Bool) (matching : List Query.Match) (files : Nat)

namespace Answer

def query.fields (q : Query.Question) (places : Bool) (ms : List Query.Match) (files : Nat) :
    List (String × Json) :=
  [("query", .record [("component_name", .text q.component),
      ("prop_criteria", .list (q.criteria.map Query.Criterion.toJson)),
      ("logic", .string q.logic.name)]),
    ("matches", .list (ms.map (Report.queryMatch places))),
    ("summary", .record [("total_matches", .nat ms.length),
      ("criteria_matched", .nat q.criteria.length), ("files_scanned", .nat files)])]

def toJson : Answer → Json
  | .findings f y r => .record (Report.shape f y r)
  | .declarations ds => .list (ds.map (fun d => .record (Report.declaration true d)))
  | .audit r => .record (Report.audit r)
  | .query q places ms files => .record (query.fields q places ms files)

end Answer

/-! ### Files -/

/-- A version of a file, analyzed for a selection. -/
structure Key where
  real : Path
  modified : Int
  size : Nat
  selection : Selection
  deriving DecidableEq, Repr

def analyzeFile (h : Host) (o : Selection) (file : String) : Option FileAnalysis :=
  match h.stat file with
  | .ok (.file bytes _) =>
    match SourceFile.read file bytes with
    | .ok p => some (p.analysis o)
    | .error _ => none
  | _ => none

def keyOf (h : Host) (o : Selection) (file : String) : Option Key :=
  match h.stat file with
  | .ok (.file bytes modified) =>
    some ⟨h.resolve (Path.ofString file), modified, bytes.length, o⟩
  | _ => none

/-- Adds up what files say. Files that cannot be read are counted. -/
def collect (analyses : List (Option FileAnalysis)) : Findings :=
  let found := analyses.filterMap id
  { analyzed := found.length
    skipped := (analyses.filter Option.isNone).length
    components := found.flatMap (·.declarations)
    usages := found.flatMap (·.usages)
    sites := found.flatMap (·.sites) }

structure Analyzer where
  config : Config
  cache : Cache Key FileAnalysis

/-- A file of a scan, with its key if the cache is used, and what the cache knows about it. -/
structure Slot where
  file : String
  key : Option Key
  known : Option FileAnalysis

namespace Analyzer

def new (c : Config) : Analyzer := ⟨c, Cache.empty c.cacheSize⟩

def slot (a : Analyzer) (h : Host) (o : Selection) (file : String) : Slot :=
  let key := if a.config.cacheEnabled then keyOf h o file else none
  ⟨file, key, key.bind a.cache.get?⟩

def outcome (h : Host) (o : Selection) (s : Slot) : Option FileAnalysis :=
  match s.known with
  | some known => some known
  | none => analyzeFile h o s.file

/-- Keeps the analysis of a slot that the cache did not know. -/
def remember (cache : Cache Key FileAnalysis) (s : Slot) (found : Option FileAnalysis) :
    Cache Key FileAnalysis :=
  match s.known, s.key, found with
  | none, some key, some f => cache.store key f
  | _, _, _ => cache

def scope (a : Analyzer) (r : Reach) : Scope where
  bounded := r.bounded.getD a.config.bounded
  depth := match r.depth with
    | some d => some d
    | none => a.config.maxDepth

/-- What an analyzer does. It may fail on the way, and what it remembers by then stays remembered. -/
abbrev Action (α : Type) : Type := ExceptT Fault (StateM Analyzer) α

/-- Analyzes the files that a request reaches. The cache is asked for all of them before anything is
stored. -/
def scan (h : Host) (r : Reach) (o : Selection) : Action Findings := do
  let a ← get
  let files ← (h.sourceFiles (a.scope r) r.path).mapError (Fault.ofSearch r.path)
  let slots := files.map (a.slot h o)
  let found := slots.map (fun s => (s, outcome h o s))
  set { a with cache := found.foldl (fun c (s, f) => remember c s f) a.cache }
  return collect (found.map (·.2))

def formatOf (given : Json) : Except Fault Report.Format :=
  match (Query.string? given).bind Report.Format.ofName? with
  | some f => .ok f
  | none => .error (.format given)

/-- A name that selects; the empty one selects everything. -/
def selecting (name : Option Text) : Option Text := name.filter (fun t => !t.isEmpty)

/-- What a request comes down to: files to look at, and what is made of the things they say. -/
structure Plan where
  reach : Reach
  selection : Selection
  conclude : Findings → Except Fault Answer

/-- Checks a request before any file is looked at. The format is looked up again to write the
report. -/
def plan : Request → Except Fault Plan
  | .analyze reach o given y => do
    let _ ← formatOf given
    return {
      reach
      selection := { o with component := selecting o.component, prop := selecting o.prop }
      conclude := fun r => (formatOf given).map (fun f => .findings f y r) }
  | .declarations component directory =>
    .ok {
      reach := { path := directory }
      selection := { component := some component }
      conclude := fun r =>
        .ok (.declarations (r.components.filter (fun d => Text.ofString d.component == component))) }
  | .audit component required directory trusting =>
    .ok {
      reach := { path := directory }
      selection := { component := some component, types := false }
      conclude := fun r => .ok (.audit (Audit.run r.sites component required trusting)) }
  | .query reach component criteria logic y => do
    let q ← (Query.validate component criteria logic).mapError .criteria
    return {
      reach
      selection := { component := some q.component }
      conclude := fun r =>
        match Query.search r.components r.sites q y.columns with
        | some ms => .ok (.query q y.places ms r.files.length)
        | none => .error .digits }

def answer (h : Host) (q : Request) : Action Answer := do
  let p ← plan q
  let r ← scan h p.reach p.selection
  p.conclude r

/-- One step of a session: the answer, and the analyzer after it. -/
def ask (a : Analyzer) (h : Host) (q : Request) : Except Fault Answer × Analyzer :=
  (answer h q).run.run a

end Analyzer

end PropAtlas.Session
