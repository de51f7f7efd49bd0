import PropAtlas.Table

/-!
A cache of bounded size. A key that is stored again keeps its place; a new one takes the last place,
and the first one makes room for it.
-/

namespace PropAtlas.Session

structure Cache (κ α : Type) where
  capacity : Nat
  entries : Table κ α := []
  /-- The keys in the order in which they came in. -/
  queue : List κ := []

namespace Cache

variable {κ α : Type} [DecidableEq κ]

/-- An empty cache that holds at least one entry. -/
def empty (size : Int) : Cache κ α := { capacity := max size.toNat 1 }

def size (c : Cache κ α) : Nat := c.entries.length

def get? (c : Cache κ α) (key : κ) : Option α := c.entries.get? key

/-- Gives up the entry whose key came in first. -/
def evict (c : Cache κ α) : Cache κ α :=
  match c.queue with
  | [] => c
  | oldest :: rest => { c with entries := c.entries.drop oldest, queue := rest }

/-- The cache with room for one more entry. -/
def room (c : Cache κ α) : Cache κ α := if c.capacity ≤ c.size then c.evict else c

/-- Adds an entry whose key is new. -/
def add (c : Cache κ α) (key : κ) (a : α) : Cache κ α :=
  { c with entries := c.entries.put key a, queue := c.queue ++ [key] }

def store (c : Cache κ α) (key : κ) (a : α) : Cache κ α :=
  if c.entries.has key then { c with entries := c.entries.put key a }
  else c.room.add key a

end Cache

end PropAtlas.Session
