import PropAtlas.Proofs.Table
import PropAtlas.Session.Cache
import Mathlib.Data.List.DropRight

/-! A cache under any sequence of writes. The table and the queue of a cache are kept apart, and a
key leaves both when the one that came in first is given up. They never drift apart: the queue lists
the keys of the table, and these are the keys of the last arrivals, as many as the cache has room for.
An arrival is a write whose key was not there when it was made, so a key that was given up may arrive
again, and one that is written over does not. -/

namespace PropAtlas.Session.Cache

variable {κ α : Type} [DecidableEq κ]

theorem capacity_room (c : Cache κ α) : c.room.capacity = c.capacity := by
  unfold room evict
  split_ifs
  · cases c.queue <;> rfl
  · rfl

theorem capacity_store (c : Cache κ α) (key : κ) (a : α) :
    (c.store key a).capacity = c.capacity := by
  unfold store
  split_ifs
  · rfl
  · exact c.capacity_room

/-- What was just written is found. -/
theorem get?_store_self (c : Cache κ α) (key : κ) (a : α) : (c.store key a).get? key = some a := by
  have hput (t : Table κ α) : (t.put key a).get? key = some a := by
    rw [Table.get?_put, if_pos rfl]
  unfold store
  split_ifs
  · exact hput c.entries
  · exact hput c.room.entries

/-! ### Histories -/

/-- The cache after writes. -/
def after (c : Cache κ α) (ws : List (κ × α)) : Cache κ α :=
  ws.foldl (fun c w => c.store w.1 w.2) c

/-- The keys of the writes that did not find their key, in order. -/
def arrivals (c : Cache κ α) : List (κ × α) → List κ
  | [] => []
  | (key, a) :: ws =>
    if (c.get? key).isSome then (c.store key a).arrivals ws
    else key :: (c.store key a).arrivals ws

/-- The value that was written last for a key. -/
def lastWritten (ws : List (κ × α)) (key : κ) : Option α :=
  ((ws.filter (fun w => w.1 = key)).getLast?).map (·.2)

/-- A cache that agrees with a history: the keys that arrived, and a table of all that was written. -/
structure Follows (c : Cache κ α) (arrived : List κ) (written : Table κ α) : Prop where
  positive : 0 < c.capacity
  keys : c.entries.keys = c.queue
  nodup : c.queue.Nodup
  queue : c.queue = arrived.rtake c.capacity
  values : ∀ key ∈ c.queue, c.get? key = written.get? key

theorem follows_empty (size : Int) : (empty size : Cache κ α).Follows [] [] where
  positive := by
    simp only [empty]
    omega
  keys := rfl
  nodup := List.nodup_nil
  queue := (List.rtake_nil _).symm
  values := fun _ hkey => absurd hkey List.not_mem_nil

section Step

variable {c : Cache κ α} {arrived : List κ} {written : Table κ α}

theorem Follows.isSome_get?_iff (h : c.Follows arrived written) {key : κ} :
    (c.get? key).isSome ↔ key ∈ c.queue := by
  rw [← h.keys]
  exact Table.isSome_get?_iff

theorem Follows.size_eq (h : c.Follows arrived written) :
    c.size = min c.capacity arrived.length := by
  have hsize : c.size = c.queue.length := by
    rw [← h.keys]
    exact (List.length_map _).symm
  rw [hsize, h.queue, List.rtake, List.length_drop]
  omega

/-- A key that is there keeps its place and gets the new value. -/
theorem Follows.overwrite (h : c.Follows arrived written) {key : κ} (a : α)
    (hkey : key ∈ c.queue) : (c.store key a).Follows arrived (written.put key a) := by
  have hmem : key ∈ c.entries.keys := by
    rw [h.keys]
    exact hkey
  have hstore : c.store key a = { c with entries := c.entries.put key a } :=
    if_pos (Table.isSome_get?_iff.mpr hmem)
  rw [hstore]
  refine ⟨h.positive, ?_, h.nodup, h.queue, ?_⟩
  · exact (Table.keys_put_of_mem a hmem).trans h.keys
  · intro k hk
    have hold : c.entries.get? k = written.get? k := h.values k hk
    change (c.entries.put key a).get? k = _
    rw [Table.get?_put, Table.get?_put, hold]

/-- Making room gives up the first key if all places are taken: one place is left. -/
theorem Follows.room (h : c.Follows arrived written) :
    c.room.entries.keys = c.room.queue ∧ c.room.queue.Nodup ∧
      c.room.queue = arrived.rtake (c.capacity - 1) ∧
      ∀ key ∈ c.room.queue, c.room.get? key = written.get? key := by
  have hpositive := h.positive
  have hsize := h.size_eq
  by_cases hfull : c.capacity ≤ c.size
  · -- The queue is not empty, since the cache has room for one entry at least.
    have hlength : c.capacity ≤ arrived.length := by omega
    have htail : c.queue.tail = arrived.rtake (c.capacity - 1) := by
      rw [h.queue, List.rtake, List.tail_drop, List.rtake]
      congr 1
      omega
    obtain ⟨oldest, rest, hqueue⟩ : ∃ oldest rest, c.queue = oldest :: rest := by
      cases hq : c.queue with
      | nil =>
        have hempty : c.queue.length = c.size := by
          rw [← h.keys]
          exact List.length_map _
        rw [hq, List.length_nil] at hempty
        omega
      | cons oldest rest => exact ⟨oldest, rest, rfl⟩
    have hroom : c.room = { c with entries := c.entries.drop oldest, queue := rest } := by
      rw [Cache.room, if_pos hfull, evict, hqueue]
    have hnodup := h.nodup
    rw [hqueue] at hnodup htail
    obtain ⟨hout, hrest⟩ := List.nodup_cons.mp hnodup
    have hne : ∀ k ∈ rest, k ≠ oldest := by
      rintro k hk rfl
      exact hout hk
    rw [hroom]
    refine ⟨?_, hrest, htail, ?_⟩
    · rw [Table.keys_drop, h.keys, hqueue, List.filter_cons_of_neg (by simp)]
      apply List.filter_eq_self.mpr
      intro k hk
      exact decide_eq_true (hne k hk)
    · intro k hk
      have hold : c.entries.get? k = written.get? k := by
        apply h.values k
        rw [hqueue]
        exact List.mem_cons_of_mem _ hk
      change (c.entries.drop oldest).get? k = _
      rw [Table.get?_drop, if_neg (hne k hk).symm, hold]
  · -- Nothing was given up so far, and one place is left.
    have hroom : c.room = c := if_neg hfull
    have hqueue : arrived.rtake c.capacity = arrived.rtake (c.capacity - 1) := by
      rw [List.rtake, List.rtake]
      congr 1
      omega
    rw [hroom]
    exact ⟨h.keys, h.nodup, h.queue.trans hqueue, h.values⟩

/-- A key that is not there arrives. -/
theorem Follows.arrive (h : c.Follows arrived written) {key : κ} (a : α)
    (hkey : key ∉ c.queue) : (c.store key a).Follows (arrived ++ [key]) (written.put key a) := by
  have hmem : key ∉ c.entries.keys := by
    rw [h.keys]
    exact hkey
  have hstore : c.store key a = c.room.add key a :=
    if_neg (fun hs => hmem (Table.isSome_get?_iff.mp hs))
  obtain ⟨hkeys, hnodup, hqueue, hvalues⟩ := h.room
  have hcapacity := c.capacity_room
  have hpositive := h.positive
  have hsub : c.room.queue ⊆ c.queue := by
    intro k hk
    rw [hqueue, List.rtake] at hk
    rw [h.queue, List.rtake]
    exact List.drop_subset_drop_left _ (by omega) hk
  have hout : key ∉ c.room.queue := fun hk => hkey (hsub hk)
  rw [hstore]
  refine ⟨?_, ?_, ?_, ?_, ?_⟩
  · change 0 < c.room.capacity
    omega
  · change (c.room.entries.put key a).keys = c.room.queue ++ [key]
    rw [Table.keys_put_of_not_mem a (by rw [hkeys]; exact hout), hkeys]
  · exact List.nodup_append.mpr ⟨hnodup, List.nodup_singleton _, by
      intro k hk k' hk' he
      rw [List.mem_singleton.mp hk'] at he
      exact hout (he ▸ hk)⟩
  · change c.room.queue ++ [key] = (arrived ++ [key]).rtake c.room.capacity
    have hsucc : c.room.capacity = (c.capacity - 1) + 1 := by omega
    rw [hqueue, hsucc, List.rtake_concat_succ]
  · intro k hk
    change (c.room.entries.put key a).get? k = _
    rw [Table.get?_put, Table.get?_put]
    by_cases he : key = k
    · rw [if_pos he, if_pos he]
    · have hin : k ∈ c.room.queue := by
        refine (List.mem_append.mp hk).resolve_right ?_
        intro hs
        exact he (List.mem_singleton.mp hs).symm
      rw [if_neg he, if_neg he]
      exact hvalues k hin

end Step

theorem capacity_after (c : Cache κ α) (ws : List (κ × α)) : (c.after ws).capacity = c.capacity := by
  induction ws generalizing c with
  | nil => rfl
  | cons w ws ih => exact (ih _).trans (c.capacity_store w.1 w.2)

/-- What one write keeps, every sequence of writes keeps. -/
theorem Follows.after {c : Cache κ α} {arrived : List κ} {written : Table κ α}
    (h : c.Follows arrived written) (ws : List (κ × α)) :
    (c.after ws).Follows (arrived ++ c.arrivals ws)
      (ws.foldl (fun t w => t.put w.1 w.2) written) := by
  induction ws generalizing c arrived written with
  | nil =>
    rw [arrivals, List.append_nil]
    exact h
  | cons w ws ih =>
    obtain ⟨key, a⟩ := w
    by_cases hkey : key ∈ c.queue
    · rw [arrivals, if_pos (h.isSome_get?_iff.mpr hkey)]
      exact ih (h.overwrite a hkey)
    · rw [arrivals, if_neg (fun hs => hkey (h.isSome_get?_iff.mp hs)), List.append_cons]
      exact ih (h.arrive a hkey)

/-- After every write from the empty cache on, the queue lists the keys of the table, each once, no
more than there is room for. The key just written is there with its value, and the keys that are there
are those of the last arrivals, in their order, each with the value that was written last for it. -/
theorem held_after_writes (size : Int) (ws : List (κ × α)) (key : κ) (a : α) :
    let start : Cache κ α := empty size
    let writes := ws ++ [(key, a)]
    let c := start.after writes
    let capacity := (max size 1).toNat
    c.entries.keys = c.queue ∧ c.queue.Nodup ∧ c.size ≤ capacity ∧ c.get? key = some a ∧
    c.queue = (start.arrivals writes).rtake capacity ∧
    c.size = min capacity (start.arrivals writes).length ∧
    ∀ k ∈ c.queue, c.get? k = lastWritten writes k := by
  intro start writes c capacity
  have hf : c.Follows (start.arrivals writes) (Table.ofList writes) := (follows_empty size).after writes
  have hcapacity : c.capacity = capacity := by
    rw [capacity_after]
    change max size.toNat 1 = (max size 1).toNat
    omega
  have hsize := hf.size_eq
  rw [hcapacity] at hsize
  refine ⟨hf.keys, hf.nodup, by omega, ?_, ?_, hsize, ?_⟩
  · have hlast : c = (start.after ws).store key a := List.foldl_append
    rw [hlast, get?_store_self]
  · rw [← hcapacity]
    exact hf.queue
  · intro k hk
    rw [hf.values k hk, Table.get?_ofList]
    rfl

end PropAtlas.Session.Cache
