import PropAtlas.Table
import Mathlib.Data.List.Nodup

/-! What tables hold: each operation is described by the values it gives to keys. A table made from a
list gives every key its last value. -/

namespace PropAtlas.Table

variable {κ α : Type} [DecidableEq κ]

theorem get?_cons (k key : κ) (a : α) (t : Table κ α) :
    get? ((k, a) :: t) key = if k = key then some a else get? t key := rfl

theorem get?_put (t : Table κ α) (key k : κ) (a : α) :
    (put t key a).get? k = if key = k then some a else get? t k := by
  induction t with
  | nil => rfl
  | cons e t ih =>
    obtain ⟨k₀, b⟩ := e
    by_cases h₀ : k₀ = key
    · subst h₀
      by_cases hk : k₀ = k <;> simp [put, get?_cons, hk]
    · by_cases hk : key = k
      · subst hk
        simpa [put, get?_cons, h₀] using ih
      · simp only [put, if_neg h₀, get?_cons, ih, if_neg hk]

theorem get?_drop (t : Table κ α) (key k : κ) :
    (drop t key).get? k = if key = k then none else get? t k := by
  induction t with
  | nil => simp [drop, get?]
  | cons e t ih =>
    obtain ⟨k₀, b⟩ := e
    simp only [drop] at ih ⊢
    by_cases h₀ : k₀ = key
    · subst h₀
      rw [List.filter_cons_of_neg (by simp), ih, get?_cons]
      by_cases hk : k₀ = k <;> simp [hk]
    · rw [List.filter_cons_of_pos (by simp [h₀]), get?_cons, get?_cons, ih]
      by_cases hk : key = k
      · subst hk
        simp [h₀]
      · simp [hk]

theorem mem_of_get? {t : Table κ α} {key : κ} {a : α} (h : get? t key = some a) :
    (key, a) ∈ t := by
  induction t with
  | nil => exact absurd h (by simp [get?])
  | cons e t ih =>
    obtain ⟨k, b⟩ := e
    rw [get?_cons] at h
    split_ifs at h with hk
    · cases h
      exact hk ▸ List.mem_cons_self
    · exact List.mem_cons_of_mem _ (ih h)

theorem mem_put {t : Table κ α} {key : κ} {a : α} {e : κ × α} (h : e ∈ put t key a) :
    e = (key, a) ∨ e ∈ t := by
  induction t with
  | nil => exact Or.inl (by simpa [put] using h)
  | cons e₀ t ih =>
    obtain ⟨k₀, b⟩ := e₀
    by_cases h₀ : k₀ = key
    · simp only [put, if_pos h₀, List.mem_cons] at h
      rcases h with h | h
      · exact Or.inl (h₀ ▸ h)
      · exact Or.inr (List.mem_cons_of_mem _ h)
    · simp only [put, if_neg h₀, List.mem_cons] at h
      rcases h with h | h
      · exact Or.inr (h ▸ List.mem_cons_self)
      · exact (ih h).imp_right (List.mem_cons_of_mem _)

/-! ### Keys -/

omit [DecidableEq κ] in
theorem mem_keys {t : Table κ α} {key : κ} : key ∈ t.keys ↔ ∃ a, (key, a) ∈ t := by
  simp [keys]

theorem mem_keys_put {t : Table κ α} {key k : κ} {a : α} :
    k ∈ (put t key a).keys ↔ k = key ∨ k ∈ t.keys := by
  induction t with
  | nil => simp [put, keys]
  | cons e t ih =>
    obtain ⟨k₀, b⟩ := e
    by_cases h₀ : k₀ = key
    · simp [put, h₀, keys]
    · simp only [put, if_neg h₀, keys, List.map_cons, List.mem_cons] at ih ⊢
      rw [ih]
      exact or_left_comm

theorem nodup_keys_put {t : Table κ α} (key : κ) (a : α) (h : t.keys.Nodup) :
    (put t key a).keys.Nodup := by
  induction t with
  | nil => simp [put, keys]
  | cons e t ih =>
    obtain ⟨k₀, b⟩ := e
    have ht := List.nodup_cons.mp h
    by_cases h₀ : k₀ = key
    · simpa [put, h₀] using h₀ ▸ h
    · rw [put, if_neg h₀]
      refine List.nodup_cons.mpr ⟨?_, ih ht.2⟩
      intro hm
      exact (mem_keys_put.mp hm).elim h₀ ht.1

theorem nodup_keys_drop {t : Table κ α} (key : κ) (h : t.keys.Nodup) : (t.drop key).keys.Nodup :=
  (List.filter_sublist.map Prod.fst).nodup h

/-- With each key once, the entries are what the keys have as values. -/
theorem get?_eq_some_iff {t : Table κ α} (h : t.keys.Nodup) {key : κ} {a : α} :
    get? t key = some a ↔ (key, a) ∈ t := by
  refine ⟨mem_of_get?, ?_⟩
  intro hm
  induction t with
  | nil => exact absurd hm List.not_mem_nil
  | cons e t ih =>
    obtain ⟨k, b⟩ := e
    have ht := List.nodup_cons.mp h
    rw [get?_cons]
    rcases List.mem_cons.mp hm with he | hm
    · cases he
      exact if_pos rfl
    · have hk : k ≠ key := by
        rintro rfl
        exact ht.1 (mem_keys.mpr ⟨a, hm⟩)
      rw [if_neg hk]
      exact ih ht.2 hm

theorem isSome_get?_iff {t : Table κ α} {key : κ} : (get? t key).isSome ↔ key ∈ t.keys := by
  induction t with
  | nil => simp [get?, keys]
  | cons e t ih =>
    obtain ⟨k, b⟩ := e
    rw [get?_cons, keys, List.map_cons, List.mem_cons]
    by_cases hk : k = key
    · simp [hk]
    · rw [if_neg hk, ih]
      constructor
      · exact Or.inr
      · intro h
        exact h.resolve_left (fun he => hk he.symm)

theorem keys_put_of_mem {t : Table κ α} {key : κ} (a : α) (h : key ∈ t.keys) :
    (put t key a).keys = t.keys := by
  induction t with
  | nil => exact absurd h List.not_mem_nil
  | cons e t ih =>
    obtain ⟨k, b⟩ := e
    by_cases hk : k = key
    · rw [put, if_pos hk]
      rfl
    · have ht : key ∈ keys t := (List.mem_cons.mp h).resolve_left (fun he => hk he.symm)
      rw [put, if_neg hk]
      exact congrArg (k :: ·) (ih ht)

theorem keys_put_of_not_mem {t : Table κ α} {key : κ} (a : α) (h : key ∉ t.keys) :
    (put t key a).keys = t.keys ++ [key] := by
  induction t with
  | nil => rfl
  | cons e t ih =>
    obtain ⟨k, b⟩ := e
    have hk : k ≠ key := fun he => h (he ▸ List.mem_cons_self)
    have ht : key ∉ keys t := fun hm => h (List.mem_cons_of_mem _ hm)
    rw [put, if_neg hk]
    exact congrArg (k :: ·) (ih ht)

theorem keys_drop (t : Table κ α) (key : κ) : (t.drop key).keys = t.keys.filter (· ≠ key) := by
  rw [keys, keys, List.filter_map]
  rfl

/-! ### Tables made from lists -/

theorem get?_foldl_put (entries : List (κ × α)) (t : Table κ α) (key : κ) :
    get? (entries.foldl (fun t (k, a) => put t k a) t) key =
      (((entries.filter (fun e => e.1 = key)).getLast?).map (·.2)).or (get? t key) := by
  induction entries generalizing t with
  | nil => simp
  | cons e entries ih =>
    obtain ⟨k, a⟩ := e
    rw [List.foldl_cons, ih, get?_put]
    by_cases hk : k = key
    · rw [List.filter_cons_of_pos (by simpa using hk), List.getLast?_cons, if_pos hk]
      cases (entries.filter (fun e => e.1 = key)).getLast? <;> rfl
    · rw [List.filter_cons_of_neg (by simpa using hk), if_neg hk]

theorem get?_ofList (entries : List (κ × α)) (key : κ) :
    (ofList entries).get? key =
      ((entries.filter (fun e => e.1 = key)).getLast?).map (·.2) := by
  rw [ofList, get?_foldl_put]
  simp [get?]

theorem nodup_keys_ofList (entries : List (κ × α)) : (ofList entries).keys.Nodup := by
  have hfold (t : Table κ α) (ht : t.keys.Nodup) :
      keys (entries.foldl (fun t (k, a) => put t k a) t) |>.Nodup := by
    induction entries generalizing t with
    | nil => exact ht
    | cons e entries ih => exact ih _ (nodup_keys_put _ _ ht)
  exact hfold [] List.nodup_nil

theorem mem_of_mem_ofList {entries : List (κ × α)} {e : κ × α} (h : e ∈ ofList entries) :
    e ∈ entries := by
  obtain ⟨key, a⟩ := e
  have hget := (get?_eq_some_iff (nodup_keys_ofList entries)).mpr h
  rw [get?_ofList, Option.map_eq_some_iff] at hget
  obtain ⟨e, he, rfl⟩ := hget
  obtain ⟨hmem, hkey⟩ := List.mem_filter.mp (List.mem_of_getLast? he)
  rw [← of_decide_eq_true hkey]
  exact hmem

theorem get?_ofList_eq_none_iff {entries : List (κ × α)} {key : κ} :
    (ofList entries).get? key = none ↔ ∀ e ∈ entries, e.1 ≠ key := by
  rw [get?_ofList, Option.map_eq_none_iff, List.getLast?_eq_none_iff, List.filter_eq_nil_iff]
  simp

/-- The entries that are put in later hide those that were there before. -/
theorem get?_ofList_append (older newer : List (κ × α)) (key : κ) :
    (ofList (older ++ newer)).get? key =
      ((ofList newer).get? key).or ((ofList older).get? key) := by
  rw [get?_ofList, get?_ofList, get?_ofList, List.filter_append, List.getLast?_append, Option.map_or]

/-- A key has what the last item with an entry for it says. -/
theorem get?_ofList_filterMap {β : Type} {f : β → Option (κ × α)} {items : List β} {key : κ} {a : α} :
    (ofList (items.filterMap f)).get? key = some a ↔
      ∃ before x after, items = before ++ x :: after ∧ f x = some (key, a) ∧
        ∀ y ∈ after, ∀ b, f y ≠ some (key, b) := by
  let entry (x : β) : Option (κ × α) := (f x).filter (fun e => decide (e.1 = key))
  have hentry (x : β) (e : κ × α) : entry x = some e ↔ f x = some e ∧ e.1 = key := by
    rw [Option.filter_eq_some_iff, decide_eq_true_iff]
  have hget : (ofList (items.filterMap f)).get? key = ((items.filterMap entry).getLast?).map (·.2) := by
    rw [get?_ofList, List.filter_filterMap]
  rw [hget, Option.map_eq_some_iff]
  constructor
  · rintro ⟨⟨k, a⟩, hlast, rfl⟩
    -- A split of the entries at the last one comes from a split of the items.
    obtain ⟨es, hes⟩ := List.getLast?_eq_some_iff.mp hlast
    obtain ⟨before, rest, rfl, _, hrest⟩ := List.filterMap_eq_append_iff.mp hes
    obtain ⟨skipped, x, after, rfl, _, hx, hafter⟩ := List.filterMap_eq_cons_iff.mp hrest
    obtain ⟨hfx, hkey⟩ := (hentry x _).mp hx
    refine ⟨before ++ skipped, x, after, by simp, hkey ▸ hfx, ?_⟩
    intro y hy b hb
    have hnone := List.filterMap_eq_nil_iff.mp hafter y hy
    rw [(hentry y _).mpr ⟨hb, rfl⟩] at hnone
    cases hnone
  · rintro ⟨before, x, after, rfl, hx, hafter⟩
    have hnil : after.filterMap entry = [] := by
      apply List.filterMap_eq_nil_iff.mpr
      intro y hy
      rw [Option.eq_none_iff_forall_ne_some]
      rintro ⟨k, b⟩ hb
      obtain ⟨hfy, hkey⟩ := (hentry y _).mp hb
      exact hafter y hy b (hkey ▸ hfy)
    refine ⟨(key, a), ?_, rfl⟩
    rw [List.filterMap_append, List.filterMap_cons_some ((hentry x _).mpr ⟨hx, rfl⟩), hnil,
      List.getLast?_concat]

/-- If entries of one key have one value, it does not matter which of them was put in last. -/
theorem get?_ofList_eq_some_iff {entries : List (κ × α)}
    (h : ∀ e ∈ entries, ∀ e' ∈ entries, e.1 = e'.1 → e.2 = e'.2) {key : κ} {a : α} :
    (ofList entries).get? key = some a ↔ (key, a) ∈ entries := by
  have hmem {b : α} (hget : (ofList entries).get? key = some b) : (key, b) ∈ entries :=
    mem_of_mem_ofList (mem_of_get? hget)
  refine ⟨hmem, ?_⟩
  intro ha
  cases hget : (ofList entries).get? key with
  | none => exact absurd rfl (get?_ofList_eq_none_iff.mp hget _ ha)
  | some b => exact congrArg some (h _ (hmem hget) _ ha rfl)

/-! ### Gathering -/

section Gather

variable {β : Type} (key : β → κ) (start : α) (add : α → β → α)

theorem filter_key_eq_nil {key : β → κ} {items : List β} {k : κ} (h : k ∉ items.map key) :
    items.filter (fun x => key x = k) = [] := by
  apply List.filter_eq_nil_iff.mpr
  intro x hx he
  exact h (List.mem_map.mpr ⟨x, hx, of_decide_eq_true he⟩)

/-- A key has what its items make, one after the other, of the value that it had before. -/
theorem get?_gather (t : Table κ α) (items : List β) (k : κ) :
    (gather key start add t items).get? k =
      if k ∈ items.map key then
        some ((items.filter (fun x => key x = k)).foldl add ((get? t k).getD start))
      else get? t k := by
  induction items generalizing t with
  | nil => simp [gather]
  | cons x items ih =>
    have hstep : gather key start add t (x :: items) =
        gather key start add (put t (key x) (add ((get? t (key x)).getD start) x)) items := rfl
    rw [hstep, ih, get?_put]
    by_cases hx : key x = k
    · subst hx
      have hfirst : key x ∈ (x :: items).map key := List.mem_cons_self
      rw [if_pos rfl, if_pos hfirst, List.filter_cons_of_pos (by simp), List.foldl_cons]
      by_cases hlater : key x ∈ items.map key
      · rw [if_pos hlater]
        rfl
      · rw [if_neg hlater, filter_key_eq_nil hlater]
        rfl
    · have hmem : k ∈ (x :: items).map key ↔ k ∈ items.map key := by
        simp [Ne.symm hx]
      rw [if_neg hx, List.filter_cons_of_neg (by simpa using hx)]
      simp only [hmem]

theorem nodup_keys_gather {t : Table κ α} (items : List β) (ht : t.keys.Nodup) :
    (gather key start add t items).keys.Nodup := by
  induction items generalizing t with
  | nil => exact ht
  | cons x items ih => exact ih (nodup_keys_put _ _ ht)

/-- Keys stand in the order in which they first appear. -/
theorem keys_gather {t : Table κ α} {ks : List κ} (items : List β) (ht : t.keys = ks.eraseDups) :
    (gather key start add t items).keys = (ks ++ items.map key).eraseDups := by
  induction items generalizing t ks with
  | nil => rw [List.map_nil, List.append_nil, ← ht]; rfl
  | cons x items ih =>
    have hput (a : α) : (put t (key x) a).keys = (ks ++ [key x]).eraseDups := by
      have hmem : key x ∈ t.keys ↔ key x ∈ ks := by rw [ht, List.mem_eraseDups]
      rw [List.eraseDups_append, List.cons_removeAll, ← ht]
      by_cases hk : key x ∈ ks
      · rw [keys_put_of_mem a (hmem.mpr hk)]
        simp [hk, List.removeAll]
      · rw [keys_put_of_not_mem a (fun h => hk (hmem.mp h))]
        simp [hk, List.removeAll, List.eraseDups_cons]
    rw [List.map_cons, List.append_cons]
    exact ih (hput _)

theorem keys_gather_nil (items : List β) :
    (gather key start add [] items).keys = (items.map key).eraseDups := by
  have hnil : keys ([] : Table κ α) = ([] : List κ).eraseDups := List.eraseDups_nil.symm
  exact keys_gather key start add items hnil

end Gather

/-- A table lists its keys with their values. -/
theorem eq_map_keys {t : Table κ α} (ht : t.keys.Nodup) {value : κ → α}
    (hvalue : ∀ k ∈ t.keys, get? t k = some (value k)) :
    t = t.keys.map (fun k => (k, value k)) := by
  have hentry : ∀ e ∈ t, e = (e.1, value e.1) := by
    rintro ⟨k, a⟩ he
    have hget : get? t k = some a := (get?_eq_some_iff ht).mpr he
    have hsame := hvalue k (mem_keys.mpr ⟨a, he⟩)
    rw [hget] at hsame
    exact Prod.ext rfl (Option.some.inj hsame)
  rw [keys, List.map_map]
  exact (List.map_id t).symm.trans (List.map_congr_left hentry)

/-! ### Values -/

variable {β : Type}

/-- The table with every value changed and every key in its place. -/
def mapValues (f : α → β) (t : Table κ α) : Table κ β := t.map (fun e => (e.1, f e.2))

omit [DecidableEq κ] in
theorem keys_mapValues (f : α → β) (t : Table κ α) : (mapValues f t).keys = t.keys := by
  rw [keys, mapValues, List.map_map]
  rfl

theorem get?_mapValues (f : α → β) (t : Table κ α) (key : κ) :
    (mapValues f t).get? key = (get? t key).map f := by
  induction t with
  | nil => rfl
  | cons e t ih =>
    obtain ⟨k, a⟩ := e
    change (if k = key then some (f a) else get? (mapValues f t) key) = _
    rw [get?_cons, ih]
    split_ifs <;> rfl

theorem mapValues_put (f : α → β) (t : Table κ α) (key : κ) (a : α) :
    mapValues f (put t key a) = (mapValues f t).put key (f a) := by
  induction t with
  | nil => rfl
  | cons e t ih =>
    obtain ⟨k, b⟩ := e
    change _ = if k = key then (k, f a) :: mapValues f t else
      (k, f b) :: put (mapValues f t) key (f a)
    rw [put, ← ih]
    split_ifs <;> rfl

theorem mapValues_drop (f : α → β) (t : Table κ α) (key : κ) :
    mapValues f (t.drop key) = (mapValues f t).drop key := by
  rw [drop, drop, mapValues, mapValues, List.filter_map]
  rfl

theorem mapValues_ofList (f : α → β) (entries : List (κ × α)) :
    mapValues f (ofList entries) = ofList (mapValues f entries) := by
  have hfold (t : Table κ α) :
      mapValues f (entries.foldl (fun t (k, a) => put t k a) t) =
        (mapValues f entries).foldl (fun t (k, b) => put t k b) (mapValues f t) := by
    induction entries generalizing t with
    | nil => rfl
    | cons e entries ih => exact (ih _).trans (by rw [mapValues_put]; rfl)
  exact hfold []

end PropAtlas.Table
