/-!
Tables from keys to values that remember the order in which keys were first put in.
-/

namespace PropAtlas

/-- Keys and their values, each key once, in order of first appearance. -/
abbrev Table (κ α : Type) : Type := List (κ × α)

namespace Table

variable {κ α : Type} [DecidableEq κ]

def get? (t : Table κ α) (key : κ) : Option α :=
  match t with
  | [] => none
  | (k, a) :: rest => if k = key then some a else get? rest key

/-- Gives a key a value: in its place if the key is there, at the end if it is not. -/
def put (t : Table κ α) (key : κ) (a : α) : Table κ α :=
  match t with
  | [] => [(key, a)]
  | (k, b) :: rest => if k = key then (k, a) :: rest else (k, b) :: put rest key a

def drop (t : Table κ α) (key : κ) : Table κ α :=
  t.filter (fun (k, _) => k ≠ key)

def has (t : Table κ α) (key : κ) : Bool := (get? t key).isSome

/-- The table that results from putting entries in one after the other. -/
def ofList (entries : List (κ × α)) : Table κ α :=
  entries.foldl (fun t (key, a) => put t key a) []

/-- The table after each of some items has changed the value of its key in turn. A key that is not there
yet has the value `start` before its first item. -/
def gather {β : Type} (key : β → κ) (start : α) (add : α → β → α) (t : Table κ α) (items : List β) :
    Table κ α :=
  items.foldl (fun t x => put t (key x) (add ((get? t (key x)).getD start) x)) t

def keys (t : Table κ α) : List κ := t.map (·.1)

end Table

end PropAtlas
