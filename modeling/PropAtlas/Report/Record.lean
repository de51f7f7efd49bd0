import PropAtlas.Audit
import PropAtlas.Json.Basic
import PropAtlas.Query.Match

/-!
Records as JSON values. A field without content is left out, and columns are written on request.
-/

namespace PropAtlas.Report

/-- A field that is there if it has content. -/
def optional (name : String) (j : Option Json) : List (String × Json) :=
  (j.map (fun v => (name, v))).toList

/-- A field that is there if it is true. -/
def flag (name : String) (b : Bool) : List (String × Json) :=
  if b then [(name, .bool true)] else []

/-- A location as editors read it: path, line and column, with forward slashes. -/
def place (path : String) (line column : Option Int) : String :=
  let p := path.map (fun c => if c == '\\' then '/' else c)
  match line, column with
  | none, _ => p
  | some l, none => s!"{p}:{l}"
  | some l, some c => s!"{p}:{l}:{c}"

/-- A name that is there if it has characters. -/
def nonEmpty (s : Option String) : Option Json :=
  match s with
  | some t => if t.isEmpty then none else some (.string t)
  | none => none

def usage (columns : Bool) (u : PropUsage) : List (String × Json) :=
  [("prop_name", .string u.name), ("component_name", .string u.component),
    ("file", .string u.file), ("line", .int u.line)]
  ++ optional "column" (if columns then some (.int u.column) else none)
  ++ optional "value" (u.value.map .text)
  ++ flag "is_spread" u.spread
  ++ optional "type" (u.type.map .string)

def declaration (columns : Bool) (d : Declaration) : List (String × Json) :=
  [("component_name", .string d.component), ("file", .string d.file), ("line", .int d.line)]
  ++ optional "column" (if columns then some (.int d.column) else none)
  ++ [("props", .list (d.props.map (fun u => .record (usage columns u))))]
  ++ optional "props_interface" (nonEmpty d.interface)

def interface (i : PropsInterface) : Json :=
  .record [("name", .string i.name), ("component_name", .string i.component),
    ("prop_types", .record (i.types.map (fun (name, t) => (name, .string t))))]

def detail (d : Query.Detail) : Json :=
  .record ([("value", .text d.value), ("line", .int d.line)]
    ++ optional "column" (d.column.map .int))

def details (t : Table Text Query.Detail) : Json :=
  .object (t.map (fun (name, d) => (name, detail d)))

def queryMatch (places : Bool) (m : Query.Match) : Json :=
  .record (
    [("component_name", .string m.component), ("file", .string m.file), ("line", .int m.line)]
    ++ optional "column" (m.column.map .int)
    ++ optional "pretty_path" (if places then some (.string (place m.file (some m.line) none))
        else none)
    ++ [("matching_props", details m.matching)]
    ++ (if m.missing.isEmpty then [] else [("missing_props", .texts m.missing)])
    ++ [("all_props", .object (m.props.map (fun (name, t) => (name, .text t))))]
    ++ flag "has_spread" m.hasSpread)

def lacking (l : Audit.Lacking) : Json :=
  .record [("component_name", .string l.component), ("file", .string l.file),
    ("line", .int l.line), ("column", .int l.column), ("existing_props", .strings l.existing)]

def audit (r : Audit.Report) : List (String × Json) :=
  [("component_name", .text r.component), ("required_prop", .text r.required),
    ("missing_prop_usages", .list (r.lacking.map lacking)),
    ("summary", .record [("total_instances", .nat r.total),
      ("missing_prop_count", .nat r.lacking.length),
      ("missing_prop_percentage", (r.percentage.map .real).getD (.int 0))])]

end PropAtlas.Report
