import PropAtlas.Report.Shape

/-! What reports write of a declaration and of a usage: what stands under each name, and that nothing stands
under any other. -/

namespace PropAtlas

/-- An object with these fields, as far as they have a value, and no others. -/
def Json.Has (j : Json) (fields : List (String × Option Json)) : Prop :=
  ∀ name, j.field? name = (fields.lookup name).join

namespace Report

/-- The fields that have a value. -/
def present (fields : List (String × Option Json)) : List (String × Json) :=
  fields.flatMap (fun f => optional f.1 f.2)

theorem lookup_optional (name k : String) (j : Option Json) :
    (optional name j).lookup k = if k = name then j else none := by
  cases j with
  | none => simp [optional]
  | some v =>
    by_cases hk : k = name
    · simp [optional, hk]
    · have hne : (k == name) = false := beq_eq_false_iff_ne.mpr hk
      simp [optional, List.lookup_cons, hne, hk]

theorem lookup_eq_none {fields : List (String × Option Json)} {k : String}
    (h : k ∉ fields.map (·.1)) : fields.lookup k = none := by
  apply List.lookup_eq_none_iff.mpr
  intro f hf
  apply bne_iff_ne.mpr
  rintro rfl
  exact h (List.mem_map_of_mem hf)

theorem lookup_present {fields : List (String × Option Json)} (h : (fields.map (·.1)).Nodup)
    (k : String) : (present fields).lookup k = (fields.lookup k).join := by
  induction fields with
  | nil => rfl
  | cons f fields ih =>
    obtain ⟨name, j⟩ := f
    obtain ⟨hname, hfields⟩ := List.nodup_cons.mp h
    have hcons : present ((name, j) :: fields) = optional name j ++ present fields := rfl
    rw [hcons, List.lookup_append, lookup_optional, ih hfields, List.lookup_cons]
    by_cases hk : k = name
    · -- A field without a value is not found further on, as no other has its name.
      subst hk
      rw [lookup_eq_none hname]
      simp
    · have hne : (k == name) = false := beq_eq_false_iff_ne.mpr hk
      rw [if_neg hk, hne, Option.none_or]

theorem has_present {fields : List (String × Option Json)} (h : (fields.map (·.1)).Nodup) :
    (Json.record (present fields)).Has fields := by
  intro name
  rw [Json.field?_record, lookup_present h]

theorem flag_eq_optional (name : String) (b : Bool) :
    flag name b = optional name (if b then some (.bool true) else none) := by
  cases b <;> rfl

theorem nonEmpty_eq (s : Option String) : nonEmpty s = (s.filter (· ≠ "")).map .string := by
  cases s with
  | none => rfl
  | some t =>
    by_cases ht : t = ""
    · subst ht
      rfl
    · simp [nonEmpty, ht, Option.filter]

section Writers

variable (y : Style) (d : Declaration) (u : PropUsage)

theorem placeField_eq_optional (path : String) (line column : Option Int) :
    y.placeField path line column = optional "pretty_path" (if y.places then
      some (.string (place path line (if y.columns then column else none))) else none) := by
  rw [Style.placeField]
  cases y.places <;> rfl

/-- What a compact report says of a declaration. -/
def outlined : List (String × Option Json) :=
  [("name", some (.string d.component)), ("props", some (.strings (d.props.map (·.name)))),
    ("interface", (d.interface.filter (· ≠ "")).map .string)]

/-- What a compact report says of a usage. -/
def mentioned : List (String × Option Json) :=
  [("name", some (.string u.name)), ("line", some (.int u.line)),
    ("col", if y.columns then some (.int u.column) else none),
    ("value", (u.value.filter (fun t => !t.isEmpty)).map .text),
    ("spread", if u.spread then some (.bool true) else none)]

/-- What a minimal report says of a usage. -/
def spotted : List (String × Option Json) :=
  [("component", some (.string u.component)), ("file", some (.string u.file)),
    ("line", some (.int u.line)),
    ("pretty_path", if y.places then
      some (.string (place u.file (some u.line) (if y.columns then some u.column else none))) else none)]

theorem outline_has : (outline d).Has (outlined d) := by
  have hwritten : outline d = .record (present (outlined d)) := by
    rw [outline, nonEmpty_eq]
    simp [present, outlined, optional]
  rw [hwritten]
  exact has_present (by decide : ["name", "props", "interface"].Nodup)

theorem mention_has : (mention y u).Has (mentioned y u) := by
  have hwritten : mention y u = .record (present (mentioned y u)) := by
    rw [mention, flag_eq_optional]
    simp [present, mentioned, optional]
  rw [hwritten]
  exact has_present (by decide : ["name", "line", "col", "value", "spread"].Nodup)

theorem spot_has : (spot y u).Has (spotted y u) := by
  have hwritten : spot y u = .record (present (spotted y u)) := by
    rw [spot, placeField_eq_optional]
    simp [present, spotted, optional]
  rw [hwritten]
  exact has_present (by decide : ["component", "file", "line", "pretty_path"].Nodup)

end Writers

end Report

end PropAtlas
