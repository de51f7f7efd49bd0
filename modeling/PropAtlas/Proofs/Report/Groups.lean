import PropAtlas.Proofs.Table
import PropAtlas.Proofs.Report.Writers
import Mathlib.Data.List.Perm.Basic

/-! Reports by file and by prop. Groups are made when they are first needed: one pass over the
declarations and one over the usages put every record at the end of the group of its key. Afterwards a
group lists the records of its key in their order, and nothing is lost, repeated or in another group. -/

namespace PropAtlas
open scoped List

/-- The items of a list. -/
def Json.items : Json → List Json
  | .list js => js
  | _ => []

/-- The items of a list in a field. -/
def Json.listed (j : Json) (name : String) : List Json := ((j.field? name).map items).getD []

theorem Findings.mem_files_iff {r : Findings} {file : String} :
    file ∈ r.files ↔ (∃ d ∈ r.components, d.file = file) ∨ ∃ u ∈ r.usages, u.file = file := by
  rw [files, List.mem_eraseDups, List.mem_append, List.mem_map, List.mem_map]

namespace Report

/-! ### Groups as filters -/

/-- The records of a file, in their order. -/
def groupOf (y : Style) (r : Findings) (file : String) : FileGroup where
  components := (r.components.filter (fun d => d.file = file)).map outline
  usages := (r.usages.filter (fun u => u.file = file)).map (mention y)

theorem foldl_addDeclaration (g : FileGroup) (ds : List Declaration) :
    ds.foldl FileGroup.addDeclaration g = { g with components := g.components ++ ds.map outline } := by
  induction ds generalizing g with
  | nil => simp
  | cons d ds ih =>
    rw [List.foldl_cons, ih]
    simp [FileGroup.addDeclaration]

theorem foldl_addUsage (y : Style) (g : FileGroup) (us : List PropUsage) :
    us.foldl (FileGroup.addUsage y) g = { g with usages := g.usages ++ us.map (mention y) } := by
  induction us generalizing g with
  | nil => simp
  | cons u us ih =>
    rw [List.foldl_cons, ih]
    simp [FileGroup.addUsage]

theorem foldl_concat {α β : Type} (f : α → β) (g : List β) (xs : List α) :
    xs.foldl (fun g x => g ++ [f x]) g = g ++ xs.map f := by
  induction xs generalizing g with
  | nil => simp
  | cons x xs ih =>
    rw [List.foldl_cons, ih]
    simp

section Shape

variable (y : Style) (r : Findings)

theorem keys_fileGroups : (fileGroups y r).keys = r.files :=
  Table.keys_gather _ _ _ r.usages (Table.keys_gather_nil _ _ _ r.components)

theorem nodup_keys_fileGroups : (fileGroups y r).keys.Nodup :=
  Table.nodup_keys_gather _ _ _ _ (Table.nodup_keys_gather _ _ _ _ List.nodup_nil)

/-- The group of a file that some record names lists the records of the file. -/
theorem get?_fileGroups {file : String} (hfile : file ∈ r.files) :
    (fileGroups y r).get? file = some (groupOf y r file) := by
  have hdeclared : (Table.gather Declaration.file {} FileGroup.addDeclaration [] r.components).get?
      file = if file ∈ r.components.map (·.file) then
        some { components := (groupOf y r file).components } else none := by
    rw [Table.get?_gather]
    simp only [foldl_addDeclaration]
    rfl
  rw [fileGroups, Table.get?_gather, hdeclared]
  by_cases hu : file ∈ r.usages.map (·.file)
  · rw [if_pos hu, foldl_addUsage]
    by_cases hd : file ∈ r.components.map (·.file)
    · rw [if_pos hd]
      rfl
    · -- A group that a usage opens has no declarations, and neither has the file.
      rw [if_neg hd, groupOf, Table.filter_key_eq_nil hd]
      rfl
  · have hd : file ∈ r.components.map (·.file) := by
      rw [Findings.files, List.mem_eraseDups, List.mem_append] at hfile
      exact hfile.resolve_right hu
    rw [if_neg hu, if_pos hd, groupOf, Table.filter_key_eq_nil hu]
    rfl

theorem fileGroups_eq :
    fileGroups y r = r.files.map (fun file => (file, groupOf y r file)) := by
  have hget : ∀ file ∈ (fileGroups y r).keys,
      (fileGroups y r).get? file = some (groupOf y r file) := by
    intro file hfile
    exact get?_fileGroups y r (keys_fileGroups y r ▸ hfile)
  have hlisted := Table.eq_map_keys (nodup_keys_fileGroups y r) hget
  rwa [keys_fileGroups] at hlisted

theorem compact_eq : compact y r =
    [("summary", .record [("files", .nat r.analyzed), ("components", .nat r.components.length),
        ("props", .nat r.usages.length)]),
      ("files", .record (r.files.map (fun file => (file, (groupOf y r file).json y file))))] := by
  rw [compact, fileGroups_eq, List.map_map]
  rfl

theorem keys_propGroups : (propGroups y r).keys = (r.usages.map (·.name)).eraseDups :=
  Table.keys_gather_nil _ _ _ r.usages

theorem nodup_keys_propGroups : (propGroups y r).keys.Nodup :=
  Table.nodup_keys_gather _ _ _ r.usages List.nodup_nil

theorem propGroups_eq : propGroups y r = (r.usages.map (·.name)).eraseDups.map
    (fun name => (name, (r.usages.filter (fun u => u.name = name)).map (spot y))) := by
  have hget : ∀ name ∈ (propGroups y r).keys, (propGroups y r).get? name =
      some ((r.usages.filter (fun u => u.name = name)).map (spot y)) := by
    intro name hname
    rw [keys_propGroups, List.mem_eraseDups] at hname
    rw [propGroups, Table.get?_gather, if_pos hname, foldl_concat]
    rfl
  have hlisted := Table.eq_map_keys (nodup_keys_propGroups y r) hget
  rwa [keys_propGroups] at hlisted

theorem minimal_eq : minimal y r =
    [("props", .record ((r.usages.map (·.name)).eraseDups.map (fun name =>
      (name, .list ((r.usages.filter (fun u => u.name = name)).map (spot y))))))] := by
  rw [minimal, propGroups_eq, List.map_map]
  rfl

end Shape

end Report

theorem Findings.nodup_files (r : Findings) : r.files.Nodup := by
  have hkeys := Report.nodup_keys_fileGroups {} r
  rwa [Report.keys_fileGroups] at hkeys

namespace Report

/-! ### Sharing out -/

/-- Groups that share out records by a key: no group is there twice, each lists the records of its key
in their order, every record has a group, and together they list every record once. -/
structure SharesOut {α : Type} (key : α → String) (write : α → Json) (records : List α)
    (groups : List (String × List Json)) : Prop where
  nodup : (groups.map (·.1)).Nodup
  listed : ∀ g ∈ groups, g.2 = (records.filter (fun x => key x = g.1)).map write
  covered : ∀ x ∈ records, key x ∈ groups.map (·.1)
  together : groups.flatMap (·.2) ~ records.map write

/-- How many items groups have in all. -/
def size : List (String × List Json) → Nat
  | [] => 0
  | g :: groups => g.2.length + size groups

theorem size_eq_length (groups : List (String × List Json)) :
    size groups = (groups.flatMap (·.2)).length := by
  induction groups with
  | nil => rfl
  | cons g groups ih => rw [size, ih, List.flatMap_cons, List.length_append]

section SharesOut

variable {α : Type} {key : α → String} {write : α → Json} {records : List α}

/-- The records of distinct keys, key by key, are all records if every record has one of the keys. -/
theorem flatMap_filter_perm {keys : List String} (hkeys : keys.Nodup)
    (hcovered : ∀ x ∈ records, key x ∈ keys) :
    keys.flatMap (fun k => records.filter (fun x => key x = k)) ~ records := by
  induction keys generalizing records with
  | nil =>
    cases records with
    | nil => exact .nil
    | cons x _ => exact absurd (hcovered x List.mem_cons_self) List.not_mem_nil
  | cons k keys ih =>
    obtain ⟨hk, hnodup⟩ := List.nodup_cons.mp hkeys
    let others := records.filter (fun x => !decide (key x = k))
    have hothers : ∀ x ∈ others, key x ∈ keys := by
      intro x hx
      obtain ⟨hmem, hne⟩ := List.mem_filter.mp hx
      exact (List.mem_cons.mp (hcovered x hmem)).resolve_left (by simpa using hne)
    -- The other keys select nothing of what the first one does.
    have hrest : keys.flatMap (fun j => records.filter (fun x => key x = j)) =
        keys.flatMap (fun j => others.filter (fun x => key x = j)) := by
      apply List.flatMap_congr
      intro j hj
      rw [List.filter_filter]
      apply List.filter_congr
      intro x _
      by_cases hx : key x = j
      · have hne : key x ≠ k := fun he => hk (he ▸ hx ▸ hj)
        simp [hx, hx ▸ hne]
      · simp [hx]
    rw [List.flatMap_cons, hrest]
    calc records.filter (fun x => key x = k) ++
          keys.flatMap (fun j => others.filter (fun x => key x = j))
        ~ records.filter (fun x => key x = k) ++ others := (ih hnodup hothers).append_left _
      _ ~ records := List.filter_append_perm _ _

theorem keys_map {β : Type} (keys : List String) (value : String → β) :
    (keys.map (fun k => (k, value k))).map (·.1) = keys := by
  rw [List.map_map]
  exact List.map_id keys

/-- A group for each of some distinct keys shares out the records if every record has one of them. -/
theorem sharesOut_map {keys : List String} (hkeys : keys.Nodup)
    (hcovered : ∀ x ∈ records, key x ∈ keys) :
    SharesOut key write records
      (keys.map (fun k => (k, (records.filter (fun x => key x = k)).map write))) := by
  refine ⟨(keys_map keys _).symm ▸ hkeys, ?_, (keys_map keys _).symm ▸ hcovered, ?_⟩
  · intro g hg
    obtain ⟨k, _, rfl⟩ := List.mem_map.mp hg
    rfl
  · rw [List.flatMap_map, ← List.map_flatMap]
    exact (flatMap_filter_perm hkeys hcovered).map write

theorem SharesOut.size_eq {groups : List (String × List Json)}
    (h : SharesOut key write records groups) : size groups = records.length := by
  rw [size_eq_length, h.together.length_eq, List.length_map]

end SharesOut

/-! ### Reports -/

/-- A number in the summary of a full report. -/
def total? (y : Style) (r : Findings) (name : String) : Option Json :=
  ((Json.record (shape .full y r)).field? "summary").bind (·.field? name)

/-- Grouped reports share out the records of the full one. A compact report has an entry for each file
that a declaration or a usage is from, with the declarations and the usages of that file; a minimal one
has an entry for each prop that is named, with its usages. The sizes of the groups add up to the totals
of the full report, and each record has the fields that are written of it and no others. -/
theorem shape_shares_out (y : Style) (r : Findings) :
    ∃ files props,
      (Json.record (shape .compact y r)).field? "files" = some (.record files) ∧
      (Json.record (shape .minimal y r)).field? "props" = some (.record props) ∧
      (∀ file, file ∈ files.map (·.1) ↔
        (∃ d ∈ r.components, d.file = file) ∨ ∃ u ∈ r.usages, u.file = file) ∧
      (∀ name, name ∈ props.map (·.1) ↔ ∃ u ∈ r.usages, u.name = name) ∧
      (∀ e ∈ files, e.2.field? "components" = some (.list (e.2.listed "components")) ∧
        e.2.field? "usages" = some (.list (e.2.listed "usages"))) ∧
      (∀ e ∈ props, e.2 = .list e.2.items) ∧
      let declared := files.map (fun e => (e.1, e.2.listed "components"))
      let used := files.map (fun e => (e.1, e.2.listed "usages"))
      let named := props.map (fun e => (e.1, e.2.items))
      SharesOut (·.file) outline r.components declared ∧
      SharesOut (·.file) (mention y) r.usages used ∧
      SharesOut (·.name) (spot y) r.usages named ∧
      total? y r "total_components" = some (.nat (size declared)) ∧
      total? y r "total_props" = some (.nat (size used)) ∧
      total? y r "total_props" = some (.nat (size named)) ∧
      ∀ d u, (outline d).Has (outlined d) ∧ (mention y u).Has (mentioned y u) ∧
        (spot y u).Has (spotted y u) := by
  let names := (r.usages.map (·.name)).eraseDups
  let files := r.files.map (fun file => (file, (groupOf y r file).json y file))
  let props := names.map (fun name =>
    (name, Json.list ((r.usages.filter (fun u => u.name = name)).map (spot y))))
  have hfiles : (Json.record (shape .compact y r)).field? "files" = some (.record files) := by
    rw [shape, compact_eq]
    rfl
  have hprops : (Json.record (shape .minimal y r)).field? "props" = some (.record props) := by
    rw [shape, minimal_eq]
    rfl
  have hfile (file : String) : file ∈ files.map (·.1) ↔ file ∈ r.files := by
    rw [keys_map]
  have hname (name : String) : name ∈ props.map (·.1) ↔ ∃ u ∈ r.usages, u.name = name := by
    rw [keys_map, List.mem_eraseDups, List.mem_map]
  have hdeclared : SharesOut (·.file) outline r.components
      (files.map (fun e => (e.1, e.2.listed "components"))) := by
    rw [List.map_map]
    exact sharesOut_map r.nodup_files (fun d hd => Findings.mem_files_iff.mpr (Or.inl ⟨d, hd, rfl⟩))
  have hused : SharesOut (·.file) (mention y) r.usages
      (files.map (fun e => (e.1, e.2.listed "usages"))) := by
    rw [List.map_map]
    exact sharesOut_map r.nodup_files (fun u hu => Findings.mem_files_iff.mpr (Or.inr ⟨u, hu, rfl⟩))
  have hnamed : SharesOut (·.name) (spot y) r.usages (props.map (fun e => (e.1, e.2.items))) := by
    have hdistinct : names.Nodup := by
      have hkeys := nodup_keys_propGroups y r
      rwa [keys_propGroups] at hkeys
    rw [List.map_map]
    exact sharesOut_map hdistinct (fun u hu => List.mem_eraseDups.mpr (List.mem_map_of_mem hu))
  refine ⟨files, props, hfiles, hprops, ?_, hname, ?_, ?_, hdeclared, hused, hnamed, ?_, ?_, ?_,
    fun d u => ⟨outline_has d, mention_has y u, spot_has y u⟩⟩
  · intro file
    rw [hfile, Findings.mem_files_iff]
  · intro e he
    obtain ⟨file, _, rfl⟩ := List.mem_map.mp he
    exact ⟨rfl, rfl⟩
  · intro e he
    obtain ⟨name, _, rfl⟩ := List.mem_map.mp he
    rfl
  · rw [hdeclared.size_eq]
    rfl
  · rw [hused.size_eq]
    rfl
  · rw [hnamed.size_eq]
    rfl

end Report

end PropAtlas
