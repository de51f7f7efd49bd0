import PropAtlas.Report.Record

/-!
The three shapes in which the findings of an analysis are reported: everything, grouped by file, or
grouped by prop.
-/

namespace PropAtlas

structure Findings where
  analyzed : Nat := 0
  skipped : Nat := 0
  components : List Declaration := []
  usages : List PropUsage := []
  sites : List Site := []
  deriving DecidableEq, Repr

/-- The files that findings stem from, in order of first appearance. -/
def Findings.files (r : Findings) : List String :=
  (r.components.map (·.file) ++ r.usages.map (·.file)).eraseDups

namespace Report

inductive Format where
  | full
  | compact
  | minimal
  deriving DecidableEq, Repr

namespace Format

def all : List Format := [.full, .compact, .minimal]

def name : Format → String
  | .full => "full"
  | .compact => "compact"
  | .minimal => "minimal"

def ofName? (s : String) : Option Format := all.find? (fun f => f.name == s)

/-- What is said of a value that names no format. -/
def unknown (given : Json) : String :=
  let names := String.intercalate ", " (all.map name)
  if given.isWritable then s!"format must be one of {names} (got {given.shown})"
  else WholeNumber.tooLong

end Format

/-- What to write besides the findings. -/
structure Style where
  columns : Bool := true
  /-- Whether to add locations as editors read them. -/
  places : Bool := false
  deriving DecidableEq, Repr

namespace Style

def placeField (y : Style) (path : String) (line column : Option Int) : List (String × Json) :=
  if y.places then
    [("pretty_path", .string (place path line (if y.columns then column else none)))]
  else []

end Style

def full (y : Style) (r : Findings) : List (String × Json) :=
  [("summary", .record [("total_files", .nat r.analyzed),
      ("total_components", .nat r.components.length), ("total_props", .nat r.usages.length),
      ("skipped_files", .nat r.skipped)]),
    ("components", .list (r.components.map (fun d =>
      .record (declaration y.columns d ++ y.placeField d.file none none)))),
    ("prop_usages", .list (r.usages.map (fun u =>
      .record (usage y.columns u ++ y.placeField u.file (some u.line) (some u.column)))))]

/-- A declaration in a file's group. -/
def outline (d : Declaration) : Json :=
  .record ([("name", .string d.component), ("props", .strings (d.props.map (·.name)))]
    ++ optional "interface" (nonEmpty d.interface))

/-- A usage in a file's group. -/
def mention (y : Style) (u : PropUsage) : Json :=
  .record ([("name", .string u.name), ("line", .int u.line)]
    ++ optional "col" (if y.columns then some (.int u.column) else none)
    ++ optional "value" ((u.value.filter (fun t => !t.isEmpty)).map .text)
    ++ flag "spread" u.spread)

structure FileGroup where
  components : List Json := []
  usages : List Json := []

namespace FileGroup

def addDeclaration (g : FileGroup) (d : Declaration) : FileGroup :=
  { g with components := g.components ++ [outline d] }

def addUsage (y : Style) (g : FileGroup) (u : PropUsage) : FileGroup :=
  { g with usages := g.usages ++ [mention y u] }

def json (y : Style) (file : String) (g : FileGroup) : Json :=
  .record ([("components", .list g.components), ("usages", .list g.usages)]
    ++ y.placeField file none none)

end FileGroup

/-- The groups of findings by file: declarations are put in first, then usages. -/
def fileGroups (y : Style) (r : Findings) : Table String FileGroup :=
  Table.gather (·.file) {} (FileGroup.addUsage y)
    (Table.gather (·.file) {} FileGroup.addDeclaration [] r.components) r.usages

def compact (y : Style) (r : Findings) : List (String × Json) :=
  [("summary", .record [("files", .nat r.analyzed), ("components", .nat r.components.length),
      ("props", .nat r.usages.length)]),
    ("files", .record ((fileGroups y r).map (fun (file, g) => (file, g.json y file))))]

/-- Where a prop is used. -/
def spot (y : Style) (u : PropUsage) : Json :=
  .record ([("component", .string u.component), ("file", .string u.file), ("line", .int u.line)]
    ++ y.placeField u.file (some u.line) (some u.column))

def propGroups (y : Style) (r : Findings) : Table String (List Json) :=
  Table.gather (·.name) [] (fun g u => g ++ [spot y u]) [] r.usages

def minimal (y : Style) (r : Findings) : List (String × Json) :=
  [("props", .record ((propGroups y r).map (fun (name, g) => (name, .list g))))]

def shape (f : Format) (y : Style) (r : Findings) : List (String × Json) :=
  match f with
  | .full => full y r
  | .compact => compact y r
  | .minimal => minimal y r

end Report

end PropAtlas
