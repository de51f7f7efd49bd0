import PropAtlas.FileSystem.Entry
import PropAtlas.Path
import PropAtlas.Text.Quoted

/-!
A machine as programs see it: its file system, the working directory, the home directories and the
environment. Paths are looked up as the operating system does, link by link, and made real as far as
they exist.
-/

namespace PropAtlas

open FileSystem (Entry)

structure Host where
  root : Entry := .directory []
  /-- The working directory, a place without links. -/
  cwd : List String := []
  home : String := "/"
  /-- The home directories of the users with a name. -/
  users : Table String String := []
  env : Table String String := []

namespace FileSystem

inductive Fault where
  | missing
  | notDirectory
  | loop
  | nameTooLong
  /-- The path holds a zero character. -/
  | zero
  deriving DecidableEq, Repr

namespace Fault

def reason : Fault → String
  | .missing => "No such file or directory"
  | .notDirectory => "Not a directory"
  | .loop => "Too many levels of symbolic links"
  | .nameTooLong => "File name too long"
  | .zero => "embedded null byte"

-- The numbers under which the operating system reports faults.
def number : Fault → Nat
  | .missing => 2
  | .notDirectory => 20
  | .loop => 40
  | .nameTooLong => 36
  | .zero => 22

def message (path : String) : Fault → String
  | .zero => Fault.zero.reason
  | f => s!"[Errno {f.number}] {f.reason}: {Quoted.shownString path}"

end Fault

-- The longest name and the longest path, in bytes, and how many links one lookup follows.
def nameLimit : Nat := 255

def pathLimit : Nat := 4095

def linkLimit : Nat := 40

/-- Where reading goes on after a link in a directory. -/
def linkStart (dir : List String) (target : String) : List String :=
  if Path.isRooted target then [] else dir

/-- How far names lead without following a link. -/
inductive Progress where
  | arrived (place : List String)
  | link (dir : List String) (target : String) (rest : List String)
  | failed (fault : Fault)

/-- Follows names from a place up to the first link. -/
def advance (root : Entry) (here : List String) : List String → Progress
  | [] => .arrived here
  | n :: rest =>
    match root.get? here with
    | none => .failed .missing
    | some (.directory es) =>
      if Path.isIdle n then advance root here rest
      else if n == ".." then advance root here.dropLast rest
      else if n.utf8ByteSize > nameLimit then .failed .nameTooLong
      else
        match Table.get? es n with
        | none => .failed .missing
        | some (.link target) => .link here target rest
        | some _ => advance root (here ++ [n]) rest
    | some _ => .failed .notDirectory

def locate (root : Entry) (links : Nat) (here names : List String) : Except Fault (List String) :=
  match advance root here names with
  | .arrived place => .ok place
  | .failed f => .error f
  | .link dir target rest =>
    match links with
    | 0 => .error .loop
    | k + 1 => locate root k (linkStart dir target) (Path.steps target ++ rest)

/-- One name of a path that is made real: a link is replaced by what `follow` makes of it. -/
def realStep (root : Entry) (follow : List String → List String → List String)
    (here : List String) (name : String) : List String :=
  if Path.isIdle name then here
  else if name == ".." then here.dropLast
  else
    match root.get? (here ++ [name]) with
    | some (.link target) => follow (linkStart here target) (Path.steps target)
    | _ => here ++ [name]

/-- The place that names lead to when every link on the way is replaced. Names that do not exist are
taken literally. Links may be nested as deep as `depth`. -/
def real (root : Entry) : (depth : Nat) → (here names : List String) → List String
  | 0, here, names => names.foldl (realStep root (fun h ns => h ++ ns)) here
  | d + 1, here, names => names.foldl (realStep root (real root d)) here

end FileSystem

namespace Host

open FileSystem

def start (h : Host) (path : String) : List String :=
  if Path.isRooted path then [] else h.cwd

def locate (h : Host) (path : String) : Except Fault (List String) :=
  if path.toList.contains '\x00' then .error .zero
  else if path.isEmpty then .error .missing
  else if path.utf8ByteSize > pathLimit then .error .nameTooLong
  else FileSystem.locate h.root linkLimit (h.start path) (Path.steps path)

def stat (h : Host) (path : String) : Except Fault Entry := do
  let place ← h.locate path
  match h.root.get? place with
  | some e => .ok e
  | none => .error .missing

/-- Whether a path leads anywhere. A path that is too long is a fault. -/
def exists? (h : Host) (path : String) : Except Fault Bool :=
  match h.stat path with
  | .ok _ => .ok true
  | .error .nameTooLong => .error .nameTooLong
  | .error _ => .ok false

/-- The path without links, dots and repeated slashes. -/
def resolve (h : Host) (p : Path) : Path :=
  let here := if p.anchor = .here then h.cwd else []
  .absolute (real h.root h.root.links here p.names)

/-! ### Home directories -/

inductive NoHome where
  | unknown
  deriving DecidableEq, Repr

def NoHome.message : NoHome → String
  | .unknown => "Could not determine home directory."

/-- The home directory of a user; no name stands for the one who runs the program. -/
def homeOf (h : Host) (user : String) : Option String :=
  if user.isEmpty then some h.home else h.users.get? user

-- Slashes at the end are dropped, and what is left of the root is nothing.
def homePath (text : String) : Except NoHome Path :=
  if text.toList.head? = some '~' then .error .unknown
  else .ok (Path.ofString (if text.toList.all (· == '/') then "/" else text))

/-- A path in which a leading `~`, perhaps followed by the name of a user, is replaced by the home
directory. -/
def expandHome (h : Host) (p : Path) : Except NoHome Path :=
  match p.anchor, p.names with
  | .here, first :: rest =>
    match first.toList with
    | '~' :: user =>
      match h.homeOf (String.ofList user) with
      | none => .error .unknown
      | some text => do
        let home ← homePath text
        return ⟨home.anchor, home.names ++ rest⟩
    | _ => .ok p
  | _, _ => .ok p

def resolveText (h : Host) (text : String) : Except NoHome Path := do
  let p ← h.expandHome (Path.ofString text)
  return h.resolve p

/-! ### Changes -/

/-- The place of a path, with every link on the way but the last name replaced. -/
def placeOf (h : Host) (path : String) : List String :=
  let p := Path.ofString path
  match p.names.getLast? with
  | none => (h.resolve p).names
  | some n => (h.resolve ⟨p.anchor, p.names.dropLast⟩).names ++ [n]

/-- Writes a file, through links, and makes the directories it needs. -/
def writeFile (h : Host) (path : String) (content : List UInt8) (modified : Int) : Host :=
  { h with root := h.root.put (.file content modified) (h.resolve (Path.ofString path)).names }

def makeLink (h : Host) (path target : String) : Host :=
  { h with root := h.root.put (.link target) (h.placeOf path) }

def makeDirectory (h : Host) (path : String) : Host :=
  let place := (h.resolve (Path.ofString path)).names
  match h.root.get? place with
  | some _ => h
  | none => { h with root := h.root.put (.directory []) place }

def remove (h : Host) (path : String) : Host :=
  { h with root := h.root.erase (h.placeOf path) }

end Host

end PropAtlas
