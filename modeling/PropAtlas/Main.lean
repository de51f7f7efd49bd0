import PropAtlas.CommandLine.Command
import PropAtlas.FileSystem.Discovery

/-!
The program: it reads the part of the file system that its command line is about, runs the command on
it and prints the outcome.
-/

namespace PropAtlas.Program

open FileSystem (Entry)

/-- The variables that settings are read from. -/
def settingNames : List String :=
  ["JSX_SOURCE_PATH", "ALLOWED_ROOTS", "RESPECT_PROJECT_BOUNDARIES", "ANALYZER_MAX_DEPTH",
    "ANALYZER_CACHE_ENABLED", "ANALYZER_CACHE_MAX_SIZE", "ANALYZER_MAX_WORKERS",
    "ANALYZER_LOG_LEVEL"]

def attempt {α : Type} (action : IO α) : IO (Option α) := do
  try return some (← action) catch _ => return none

def realNames (path : String) : IO (Option (List String)) := do
  let real ← attempt <| IO.FS.realPath path
  return real.map (fun p => (Path.ofString p.toString).names)

def entryAt (place : List String) : IO.FS.DirEntry :=
  ⟨(Path.absolute place.dropLast).text, place.getLast?.getD "."⟩

/-- Adds what stands at a place to a tree. Directories are read to the bottom if `deep`, apart from
those that no analysis looks into. Only source files are read. -/
partial def readPlace (tree : Entry) (place : List String) (deep : Bool) : IO Entry := do
  let path := (Path.absolute place).text
  let some info ← attempt (entryAt place).path.symlinkMetadata | return tree
  match info.type with
  | .dir =>
    let mut grown := if (tree.get? place).isSome then tree else tree.put (.directory []) place
    if deep then
      let some listing ← attempt (entryAt place).path.readDir | return grown
      for e in listing do
        if !FileSystem.skippedDirectories.contains e.fileName then
          grown ← readPlace grown (place ++ [e.fileName]) true
    return grown
  | .file =>
    let wanted := FileSystem.sourceSuffixes.contains (Path.suffix path)
    let content ← if wanted then attempt <| IO.FS.readBinFile path else pure none
    return tree.put (.file ((content.map (·.toList)).getD []) info.modified.sec) place
  | .symlink =>
    let some real ← realNames path | return tree
    let grown := tree.put (.link (Path.absolute real).text) place
    if (grown.get? real).isSome then return grown else readPlace grown real false
  | .other => return tree.put .device place

/-- Adds the links on the way of a path, what it leads to, and the project markers above that. -/
def readPath (tree : Entry) (cwd : List String) (path : String) : IO Entry := do
  let p := Path.ofString path
  let full := if p.anchor = .here then cwd ++ p.names else p.names
  let mut grown := tree
  for k in List.range full.length do
    let some above ← realNames (Path.absolute (full.take k)).text | continue
    match full[k]? with
    | some name => if name != ".." then grown ← readPlace grown (above ++ [name]) false
    | none => pure ()
  let some real ← realNames (Path.absolute full).text | return grown
  for place in Path.ancestors real do
    for marker in FileSystem.projectMarkers do
      grown ← readPlace grown (place ++ [marker]) false
  readPlace grown real true

-- One user a line, in fields between colons: the name is the first and the home directory the sixth.
def readUsers : IO (Table String String) := do
  let some text ← attempt <| IO.FS.readFile "/etc/passwd" | return []
  return (text.splitOn "\n").filterMap (fun l =>
    match l.splitOn ":" with
    | name :: _ :: _ :: _ :: _ :: home :: _ => some (name, home)
    | _ => none)

/-- The host as far as a command line needs it. -/
def readHost (words : List String) : IO Host := do
  let cwd := (Path.ofString (← IO.currentDir).toString).names
  let mut env : Table String String := []
  for name in settingNames do
    if let some v ← IO.getEnv name then env := env.put name v
  let home := (← IO.getEnv "HOME").getD "/"
  let tree ← match CommandLine.readCommand words with
    | .ok i => readPath (.directory []) cwd ((i.arguments.path.filter (fun s => !s.isEmpty)).getD ".")
    | .error _ => pure (.directory [])
  return { root := tree, cwd, home, users := ← readUsers, env }

end PropAtlas.Program

def main (words : List String) : IO UInt32 := do
  match PropAtlas.CommandLine.runCommand (← PropAtlas.Program.readHost words) words with
  | .error f =>
    IO.eprintln f.message
    return 1
  | .ok o =>
    IO.print o.stdout
    for l in o.stderr do IO.eprintln l
    return UInt32.ofNat (o.exit.getD 0)
