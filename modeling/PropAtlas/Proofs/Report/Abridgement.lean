import PropAtlas.Component.Extract
import PropAtlas.Proofs.Report.Counts
import PropAtlas.Syntax.Grammar

/-! What a compact report keeps of a usage. It leaves out the component, the file and the type, and has
shorter names for some of the other fields. The value is kept unless it is empty: there the two reports
differ, since a full one writes every value. -/

namespace PropAtlas

/-- Whether a field has a given text. -/
def Json.hasText (j : Json) (name : String) (t : Text) : Bool :=
  match j.field? name with
  | some (.text u) => u == t
  | _ => false

namespace Report

/-! ### Fields of a usage -/

/-- The fields that a compact report keeps of a usage, with their names there. -/
def shortNames : List (String × String) :=
  [("prop_name", "name"), ("line", "line"), ("column", "col"), ("value", "value"),
    ("is_spread", "spread")]

/-- A usage of a full report with the fields and the names of a compact one. -/
def abridge : Json → Json
  | .object fields => .object (fields.filterMap (fun f =>
      (shortNames.find? (fun n => Text.ofString n.1 == f.1)).map (fun n => (Text.ofString n.2, f.2))))
  | j => j

/-- A usage without its value if the value is empty. -/
def dropBlank : Json → Json
  | .object fields =>
    .object (fields.filter (fun f => !(f.1 == Text.ofString "value" && f.2.isEmptyish)))
  | j => j

/-- A usage as a full report writes it. -/
def told (y : Style) (u : PropUsage) : Json :=
  .record (usage y.columns u ++ y.placeField u.file (some u.line) (some u.column))

section Fields

/-- What is kept of a field. -/
def keep (field : String × Json) : Option (String × Json) :=
  (shortNames.find? (fun n => n.1 == field.1)).map (fun n => (n.2, field.2))

def isBlankValue (field : String × Json) : Bool := field.1 == "value" && field.2.isEmptyish

theorem beq_ofString (s t : String) : (Text.ofString s == Text.ofString t) = (s == t) := by
  rw [Bool.eq_iff_iff, beq_iff_eq, beq_iff_eq, Text.ofString_inj]

theorem abridge_record (fields : List (String × Json)) :
    abridge (.record fields) = .record (fields.filterMap keep) := by
  simp only [Json.record, abridge, List.filterMap_map, List.map_filterMap]
  congr 2
  funext f
  simp only [Function.comp, beq_ofString, keep, Option.map_map]
  rfl

theorem dropBlank_record (fields : List (String × Json)) :
    dropBlank (.record fields) = .record (fields.filter (fun f => !isBlankValue f)) := by
  simp only [Json.record, dropBlank, List.filter_map]
  congr 2
  apply List.filter_congr
  intro f _
  simp only [Function.comp, beq_ofString, isBlankValue]

variable {name : String}

theorem filterMap_keep_optional {short : String}
    (h : shortNames.find? (fun n => n.1 == name) = some (name, short)) (j : Option Json) :
    (optional name j).filterMap keep = optional short j := by
  cases j with
  | none => rfl
  | some v => simp [optional, keep, h]

theorem filter_optional_of_ne (h : name ≠ "value") (j : Option Json) :
    (optional name j).filter (fun f => !isBlankValue f) = optional name j := by
  cases j with
  | none => rfl
  | some v => simp [optional, isBlankValue, h]

end Fields

section Usage

variable (y : Style) (u : PropUsage)

theorem abridge_told :
    abridge (told y u) = .record ([("name", .string u.name), ("line", .int u.line)]
      ++ optional "col" (if y.columns then some (.int u.column) else none)
      ++ optional "value" (u.value.map .text) ++ flag "spread" u.spread) := by
  have hcolumn (j : Option Json) : (optional "column" j).filterMap keep = optional "col" j :=
    filterMap_keep_optional rfl j
  have hvalue (j : Option Json) : (optional "value" j).filterMap keep = optional "value" j :=
    filterMap_keep_optional rfl j
  have hspread : (flag "is_spread" u.spread).filterMap keep = flag "spread" u.spread := by
    cases u.spread <;> rfl
  have htype : (optional "type" (u.type.map .string)).filterMap keep = [] := by
    cases u.type <;> rfl
  have hplace : (y.placeField u.file (some u.line) (some u.column)).filterMap keep = [] := by
    rw [Style.placeField]
    split_ifs <;> rfl
  rw [told, abridge_record]
  simp only [usage, List.filterMap_append, hcolumn, hvalue, hspread, htype, hplace, List.append_nil]
  rfl

theorem dropBlank_abridge_told : dropBlank (abridge (told y u)) = mention y u := by
  have hvalue : (optional "value" (u.value.map .text)).filter (fun f => !isBlankValue f) =
      optional "value" ((u.value.filter (fun t => !t.isEmpty)).map .text) := by
    cases hv : u.value with
    | none => rfl
    | some t => cases t <;> rfl
  have hcolumn (j : Option Json) :
      (optional "col" j).filter (fun f => !isBlankValue f) = optional "col" j :=
    filter_optional_of_ne (by decide) j
  have hspread : (flag "spread" u.spread).filter (fun f => !isBlankValue f) =
      flag "spread" u.spread := by
    cases u.spread <;> rfl
  rw [abridge_told, dropBlank_record, List.filter_append, List.filter_append, List.filter_append,
    hvalue, hcolumn, hspread]
  rfl

/-- What a full report says of a usage. -/
def toldOf : List (String × Option Json) :=
  [("prop_name", some (.string u.name)), ("component_name", some (.string u.component)),
    ("file", some (.string u.file)), ("line", some (.int u.line)),
    ("column", if y.columns then some (.int u.column) else none), ("value", u.value.map .text),
    ("is_spread", if u.spread then some (.bool true) else none), ("type", u.type.map .string),
    ("pretty_path", if y.places then
      some (.string (place u.file (some u.line) (if y.columns then some u.column else none))) else none)]

theorem told_has : (told y u).Has (toldOf y u) := by
  have hwritten : told y u = .record (present (toldOf y u)) := by
    rw [told, usage, flag_eq_optional, placeField_eq_optional]
    simp [present, toldOf, optional]
  rw [hwritten]
  exact has_present (by decide : ["prop_name", "component_name", "file", "line", "column", "value",
    "is_spread", "type", "pretty_path"].Nodup)

theorem value_told : (told y u).field? "value" = u.value.map .text := told_has y u "value"

theorem value_mention :
    (mention y u).field? "value" = (u.value.filter (fun t => !t.isEmpty)).map .text :=
  mention_has y u "value"

theorem file_told (file : String) :
    (told y u).hasText "file" (Text.ofString file) = decide (u.file = file) := by
  have hfield : (told y u).field? "file" = some (.string u.file) := told_has y u "file"
  rw [Json.hasText, hfield, Bool.eq_iff_iff]
  simp only [Json.string, beq_iff_eq, decide_eq_true_eq]
  exact Text.ofString_inj

/-- Nothing but an empty value tells the two ways to write a usage apart. -/
theorem abridge_told_eq_iff : abridge (told y u) = mention y u ↔ u.value ≠ some [] := by
  constructor
  · intro h hv
    have habridged : (abridge (told y u)).field? "value" = some (.text []) := by
      rw [abridge_told, hv, Json.field?_record]
      simp [List.lookup_append, lookup_optional, List.lookup_cons]
    rw [h, value_mention, hv] at habridged
    cases habridged
  · intro hv
    have hkept : u.value.filter (fun t => !t.isEmpty) = u.value := by
      cases ht : u.value with
      | none => rfl
      | some t =>
        cases t with
        | nil => exact absurd ht hv
        | cons p t => rfl
    rw [abridge_told, mention, hkept]

end Usage

/-! ### Usages of a file -/

/-- The usages of a file in a full report. -/
def usagesIn (file : String) (report : Json) : List Json :=
  (report.listed "prop_usages").filter (fun j => j.hasText "file" (Text.ofString file))

/-- The usages of a file in a compact report. -/
def mentionsIn (file : String) (report : Json) : List Json :=
  (((report.field? "files").bind (·.field? file)).map (·.listed "usages")).getD []

theorem usagesIn_full (y : Style) (r : Findings) (file : String) :
    usagesIn file (.record (shape .full y r)) =
      (r.usages.filter (fun u => u.file = file)).map (told y) := by
  have hlisted : (Json.record (shape .full y r)).listed "prop_usages" = r.usages.map (told y) := rfl
  rw [usagesIn, hlisted, List.filter_map]
  congr 1
  apply List.filter_congr
  intro u _
  exact file_told y u file

theorem mentionsIn_compact (y : Style) (r : Findings) (file : String) :
    mentionsIn file (.record (shape .compact y r)) =
      (r.usages.filter (fun u => u.file = file)).map (mention y) := by
  have hfiles : (Json.record (shape .compact y r)).field? "files" =
      some (.record (r.files.map (fun file => (file, (groupOf y r file).json y file)))) := by
    rw [shape, compact_eq]
    rfl
  rw [mentionsIn, hfiles, Option.bind_some, Json.field?_record, lookup_map_self]
  by_cases hfile : file ∈ r.files
  · rw [if_pos hfile]
    rfl
  · -- A file without an entry has no usages.
    have hnone : file ∉ r.usages.map (·.file) := by
      intro hu
      obtain ⟨u, hu, he⟩ := List.mem_map.mp hu
      exact hfile (Findings.mem_files_iff.mpr (Or.inr ⟨u, hu, he⟩))
    rw [if_neg hfile, Table.filter_key_eq_nil hnone]
    rfl

/-- What a compact report says of the usages of a file is what a full report says of them, in the same
order and under shorter names, less the values that are empty. So the two agree if and only if no usage
of the file has an empty value. -/
theorem compact_abridges_full (y : Style) (r : Findings) (file : String) :
    let usages := usagesIn file (.record (shape .full y r))
    let mentions := mentionsIn file (.record (shape .compact y r))
    mentions = usages.map (fun j => dropBlank (abridge j)) ∧
    (mentions = usages.map abridge ↔ ∀ u ∈ r.usages, u.file = file → u.value ≠ some []) ∧
    List.Forall₂ (fun j m => m.field? "value" = (j.field? "value").filter (fun v => !v.isEmptyish))
      usages mentions := by
  intro usages mentions
  have husages : usages = (r.usages.filter (fun u => u.file = file)).map (told y) :=
    usagesIn_full y r file
  have hmentions : mentions = (r.usages.filter (fun u => u.file = file)).map (mention y) :=
    mentionsIn_compact y r file
  rw [husages, hmentions, List.map_map, List.map_map]
  refine ⟨?_, ?_, ?_⟩
  · apply List.map_congr_left
    intro u _
    exact (dropBlank_abridge_told y u).symm
  · rw [List.map_inj_left]
    constructor
    · intro h u hu hfile
      have hsame := h u (List.mem_filter.mpr ⟨hu, decide_eq_true hfile⟩)
      exact (abridge_told_eq_iff y u).mp hsame.symm
    · intro h u hu
      obtain ⟨hmem, hfile⟩ := List.mem_filter.mp hu
      exact ((abridge_told_eq_iff y u).mpr (h u hmem (of_decide_eq_true hfile))).symm
  · rw [List.forall₂_map_left_iff, List.forall₂_map_right_iff, List.forall₂_same]
    intro u _
    rw [value_told, value_mention]
    cases u.value with
    | none => rfl
    | some t => cases t <;> rfl

/-- An element with an empty attribute value. -/
def blankSource : Source := Source.ofList "<A b=\"\" />;".toList

/-- The one usage of the source. -/
def blankUsage : PropUsage where
  name := "b"
  component := "A"
  file := "a.tsx"
  line := 1
  column := 3
  value := some []

/-- A full report of the source has the empty value and a compact one has not. -/
theorem compact_drops_blank :
    ∃ root, Syntax.parse .tsx blankSource = some root ∧
      let r : Findings :=
        { analyzed := 1, usages := (Component.extract blankSource "a.tsx" root {} none).usages }
      let usages := usagesIn "a.tsx" (.record (shape .full {} r))
      let mentions := mentionsIn "a.tsx" (.record (shape .compact {} r))
      usages.map (·.field? "value") = [some (.text [])] ∧
      mentions.map (·.field? "value") = [none] ∧ mentions ≠ usages.map abridge := by
  have hparse : (Syntax.parse .tsx blankSource).any (fun root => decide
      ((Component.extract blankSource "a.tsx" root {} none).usages = [blankUsage])) = true := by
    decide +kernel
  obtain ⟨root, hroot, h⟩ := (Option.any_eq_true _ _).mp hparse
  refine ⟨root, hroot, ?_⟩
  intro r usages mentions
  have hfound : r.usages = [blankUsage] := of_decide_eq_true h
  have husages : usages = (r.usages.filter (fun u => u.file = "a.tsx")).map (told {}) :=
    usagesIn_full {} r "a.tsx"
  have hmentions : mentions = (r.usages.filter (fun u => u.file = "a.tsx")).map (mention {}) :=
    mentionsIn_compact {} r "a.tsx"
  rw [husages, hmentions, hfound]
  refine ⟨rfl, rfl, ?_⟩
  intro hsame
  have hvalue := (abridge_told_eq_iff {} blankUsage).mp (List.singleton_inj.mp hsame).symm
  exact hvalue rfl

end Report

end PropAtlas
