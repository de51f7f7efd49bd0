import PropAtlas.FileSystem.Host

/-!
Which source files belong to an analysis: a file by itself, or those below a directory that are not
in a directory of dependencies or build results. On request, files whose real path is outside the
project are dropped.
-/

namespace PropAtlas.FileSystem

def sourceSuffixes : List String := [".js", ".jsx", ".ts", ".tsx"]

def skippedDirectories : List String :=
  ["node_modules", "dist", "build", ".git", "coverage", "tmp", "temp"]

/-- Files and directories that are found at the top of a project. -/
def projectMarkers : List String :=
  ["package.json", ".git", "tsconfig.json", "jsconfig.json", ".eslintrc.js", ".eslintrc.json",
    "webpack.config.js", "vite.config.js", "next.config.js", "gatsby-config.js"]

def markerLevels : Nat := 10

structure Scope where
  suffixes : List String := sourceSuffixes
  skipped : List String := skippedDirectories
  bounded : Bool := false
  /-- How deep to look; a file in the directory itself has depth one. -/
  depth : Option Int := none

namespace Scope

def admits (o : Scope) (level : Nat) : Bool :=
  match o.depth with
  | none => true
  | some d => (level : Int) ≤ d

def wants (o : Scope) (name : String) : Bool := o.suffixes.contains (Path.suffix name)

end Scope

/-- The names that lead to everything but directories, through directories that are looked into. The
entries are at depth `level`. -/
def leaves (o : Scope) (level : Nat) : List (String × Entry) → List (List String)
  | [] => []
  | (n, .directory es) :: rest =>
    (if o.skipped.contains n || !o.admits (level + 1) then []
      else (leaves o (level + 1) es).map (n :: ·))
    ++ leaves o level rest
  | (n, _) :: rest => (if o.admits level then [[n]] else []) ++ leaves o level rest

def extendAll (text : String) (names : List String) : String := names.foldl Path.extend text

def markerPath (place : List String) (marker : String) : String :=
  (Path.absolute (place ++ [marker])).text

/-- Why a search fails. -/
inductive SearchFault where
  | root (fault : Fault)
  | marker (path : String) (fault : Fault)
  deriving DecidableEq, Repr

end FileSystem

namespace Host

open FileSystem

/-- Whether a place holds one of some markers. They are looked up in turn until there is one. -/
def hasMarker (h : Host) (place : List String) : (markers : List String) → Except SearchFault Bool
  | [] => .ok false
  | m :: markers =>
    match h.exists? (markerPath place m) with
    | .error f => .error (.marker (markerPath place m) f)
    | .ok true => .ok true
    | .ok false => h.hasMarker place markers

def markedPlaces (h : Host) : List (List String) → Except SearchFault (List (List String))
  | [] => .ok []
  | place :: places => do
    let marked ← h.hasMarker place projectMarkers
    let rest ← h.markedPlaces places
    return if marked then place :: rest else rest

/-- The directories at and above a path that hold a project marker, the nearest first. -/
def projectRoots (h : Host) (path : String) : Except SearchFault (List Path) := do
  let place := (h.resolve (Path.ofString path)).names
  let marked ← h.markedPlaces ((Path.ancestors place).take markerLevels)
  return marked.map Path.absolute

/-- Whether the real path of a file is inside the nearest project root or, without one, inside the
searched directory. -/
def isInProject (h : Host) (file : String) (roots : List Path) (searched : String) : Bool :=
  let boundary := roots.head?.getD (h.resolve (Path.ofString searched))
  boundary.contains (h.resolve (Path.ofString file))

def isFile (h : Host) (path : String) : Bool :=
  match h.stat path with
  | .ok (.file _ _) => true
  | _ => false

def foundBelow (h : Host) (o : Scope) (root : String) (entries : List (String × Entry)) :
    List String :=
  (((leaves o 1 entries).filter (fun names => o.wants (names.getLast?.getD ""))).map
    (extendAll root)).filter h.isFile

/-- The source files below a directory that was looked up. The project is found before them. -/
def filesBelow (h : Host) (o : Scope) (root : String) (entries : List (String × Entry)) :
    Except SearchFault (List String) :=
  let found := h.foundBelow o root entries
  let sorted (files : List String) : List String := files.mergeSort (fun a b => decide (a ≤ b))
  if o.bounded then
    (h.projectRoots root).map (fun roots =>
      sorted (found.filter (fun file => h.isInProject file roots root)))
  else .ok (sorted found)

/-- The source files of a path, sorted. A path that leads nowhere has none. -/
def sourceFiles (h : Host) (o : Scope) (root : String) : Except SearchFault (List String) :=
  match h.stat root with
  | .error .missing => .ok []
  | .error f => .error (.root f)
  | .ok (.file _ _) => .ok (if o.wants root then [root] else [])
  | .ok (.directory es) => h.filesBelow o root es
  | .ok _ => .ok []

end Host

end PropAtlas
