import PropAtlas.Table

/-!
The contents of a file system: a tree of directories, with files, symbolic links and devices as its
leaves. Places in it are lists of names from the root, taken literally.
-/

namespace PropAtlas.FileSystem

inductive Entry where
  /-- A file with the time of its last change, in seconds. -/
  | file (content : List UInt8) (modified : Int)
  | directory (entries : List (String × Entry))
  | link (target : String)
  | device

namespace Entry

/-- The entries of a directory; other entries have none. -/
def listing : Entry → List (String × Entry)
  | .directory es => es
  | _ => []

def get? (e : Entry) : List String → Option Entry
  | [] => some e
  | n :: ns => (Table.get? e.listing n).bind (fun c => c.get? ns)

/-- The tree with an entry at a place, and with the directories that lead there. -/
def put (e new : Entry) : List String → Entry
  | [] => new
  | n :: ns =>
    let c := (Table.get? e.listing n).getD (.directory [])
    .directory (Table.put e.listing n (c.put new ns))

/-- The tree without the entry at a place. -/
def erase (e : Entry) : List String → Entry
  | [] => e
  | n :: ns =>
    match Table.get? e.listing n with
    | none => e
    | some c =>
      if ns.isEmpty then .directory (Table.drop e.listing n)
      else .directory (Table.put e.listing n (c.erase ns))

mutual

def links : Entry → Nat
  | .link _ => 1
  | .directory es => linksOf es
  | _ => 0

def linksOf : List (String × Entry) → Nat
  | [] => 0
  | (_, e) :: es => links e + linksOf es

end

end Entry

end PropAtlas.FileSystem
