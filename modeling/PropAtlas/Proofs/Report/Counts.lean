import PropAtlas.Proofs.Report.Groups
import Mathlib.Data.List.Forall2

/-! What can be read off a report. Whatever the format is, a report tells how often each prop is
named in each file, and all but the shortest tell how many files were analyzed and how much each
declares. The order of the fields of an object carries no meaning. -/

namespace PropAtlas

/-! ### Values up to the order of fields -/

/-- Equal but for the order in which objects list their fields. -/
inductive Json.Alike : Json → Json → Prop where
  | refl (j : Json) : Alike j j
  | list {xs ys : List Json} (h : List.Forall₂ Alike xs ys) : Alike (.list xs) (.list ys)
  | object {fs gs : List (Text × Json)}
      (h : ∀ name, Option.Rel Alike (fs.lookup name) (gs.lookup name)) :
      Alike (.object fs) (.object gs)

namespace Json.Alike

theorem lookup {fs gs : List (String × Json)} (h : Alike (.record fs) (.record gs))
    (name : String) : Option.Rel Alike (fs.lookup name) (gs.lookup name) := by
  have hfield {j k : Json} (h : Alike j k) : Option.Rel Alike (j.field? name) (k.field? name) := by
    cases h with
    | refl =>
      cases j.field? name with
      | none => exact .none
      | some i => exact .some (.refl i)
    | list => exact .none
    | object h => exact h (Text.ofString name)
  rw [← Json.field?_record, ← Json.field?_record]
  exact hfield h

theorem field {fs gs : List (String × Json)} {j k : Json} (h : Alike (.record fs) (.record gs))
    (name : String) (hj : fs.lookup name = some j) (hk : gs.lookup name = some k) : Alike j k := by
  have hr := h.lookup name
  rw [hj, hk] at hr
  cases hr with
  | some hr => exact hr

theorem items {xs ys : List Json} (h : Alike (.list xs) (.list ys)) : List.Forall₂ Alike xs ys := by
  cases h with
  | refl => exact List.forall₂_same.mpr (fun j _ => .refl j)
  | list h => exact h

theorem text {s t : Text} (h : Alike (.text s) (.text t)) : s = t := by
  cases h
  rfl

theorem string {s t : String} (h : Alike (.string s) (.string t)) : s = t :=
  Text.ofString_inj.mp h.text

theorem nat {m n : Nat} (h : Alike (.nat m) (.nat n)) : m = n := by
  cases h
  rfl

/-- A field that the items of two lists have alike. -/
theorem map_eq {α β : Type} {write : α → Json} {key : α → β}
    (hkey : ∀ a b, Alike (write a) (write b) → key a = key b) {xs ys : List α}
    (h : Alike (.list (xs.map write)) (.list (ys.map write))) : xs.map key = ys.map key := by
  -- Pairs of items, not of their written forms, so that the induction runs over `xs` and `ys`.
  have hitems := List.forall₂_map_right_iff.mp (List.forall₂_map_left_iff.mp h.items)
  clear h
  induction hitems with
  | nil => rfl
  | cons hab _ ih => rw [List.map_cons, List.map_cons, hkey _ _ hab, ih]

end Json.Alike

theorem lookup_map_self (names : List String) (write : String → Json) (name : String) :
    (names.map (fun n => (n, write n))).lookup name =
      if name ∈ names then some (write name) else none := by
  induction names with
  | nil => rfl
  | cons n names ih =>
    rw [List.map_cons, List.lookup_cons, ih]
    by_cases h : name = n
    · subst h
      simp
    · have hb : (name == n) = false := beq_eq_false_iff_ne.mpr h
      simp [hb, h]

/-- In objects with a field for each of some names, a name is absent from both or alike in both. -/
theorem Json.Alike.entry {names names' : List String} {write write' : String → Json}
    (h : Alike (.record (names.map (fun n => (n, write n))))
      (.record (names'.map (fun n => (n, write' n))))) (name : String) :
    (name ∉ names ∧ name ∉ names') ∨ Alike (write name) (write' name) := by
  have hr := h.lookup name
  rw [lookup_map_self, lookup_map_self] at hr
  split_ifs at hr with hn hn'
  · cases hr with
    | some hr => exact Or.inr hr
  · cases hr
  · cases hr
  · exact Or.inl ⟨hn, by assumption⟩

/-! ### Counts -/

/-- How often a prop is named in a file. -/
def Findings.uses (r : Findings) (name file : String) : Nat :=
  r.usages.countP (fun u => u.name == name && u.file == file)

/-- How many declarations a file holds. -/
def Findings.declared (r : Findings) (file : String) : Nat :=
  r.components.countP (fun d => d.file == file)

namespace Report

/-- Findings that cannot be told apart by the counts that a format gives. -/
structure SameCounts (f : Format) (r r' : Findings) : Prop where
  uses : ∀ name file, r.uses name file = r'.uses name file
  analyzed : f ≠ .minimal → r.analyzed = r'.analyzed
  declared : f ≠ .minimal → ∀ file, r.declared file = r'.declared file

theorem uses_eq_of_map {r r' : Findings}
    (h : r.usages.map (fun u => (u.name, u.file)) = r'.usages.map (fun u => (u.name, u.file)))
    (name file : String) : r.uses name file = r'.uses name file := by
  have hcount (r : Findings) : r.uses name file =
      (r.usages.map (fun u => (u.name, u.file))).countP (fun p => p.1 == name && p.2 == file) := by
    rw [List.countP_map]
    rfl
  rw [hcount, hcount, h]

theorem declared_eq_of_map {r r' : Findings}
    (h : r.components.map (·.file) = r'.components.map (·.file)) (file : String) :
    r.declared file = r'.declared file := by
  have hcount (r : Findings) :
      r.declared file = (r.components.map (·.file)).countP (fun p => p == file) := by
    rw [List.countP_map]
    rfl
  rw [hcount, hcount, h]

theorem sameCounts_of_full {y : Style} {r r' : Findings}
    (h : Json.Alike (.record (full y r)) (.record (full y r'))) : SameCounts .full r r' := by
  have hu : r.usages.map (fun u => (u.name, u.file)) =
      r'.usages.map (fun u => (u.name, u.file)) := by
    refine Json.Alike.map_eq ?_ (h.field "prop_usages" rfl rfl)
    intro u v huv
    exact Prod.ext (huv.field "prop_name" rfl rfl).string (huv.field "file" rfl rfl).string
  have hd : r.components.map (·.file) = r'.components.map (·.file) := by
    refine Json.Alike.map_eq ?_ (h.field "components" rfl rfl)
    intro d e hde
    exact (hde.field "file" rfl rfl).string
  exact ⟨uses_eq_of_map hu,
    fun _ => ((h.field "summary" rfl rfl).field "total_files" rfl rfl).nat,
    fun _ => declared_eq_of_map hd⟩

theorem uses_eq_zero {r : Findings} {name file : String} (h : file ∉ r.files) :
    r.uses name file = 0 := by
  rw [Findings.uses, List.countP_eq_zero]
  intro u hu hnf
  apply h
  rw [Findings.files, List.mem_eraseDups, List.mem_append]
  exact Or.inr (List.mem_map.mpr ⟨u, hu, by simpa using (Bool.and_eq_true_iff.mp hnf).2⟩)

theorem declared_eq_zero {r : Findings} {file : String} (h : file ∉ r.files) :
    r.declared file = 0 := by
  rw [Findings.declared, List.countP_eq_zero]
  intro d hd hf
  apply h
  rw [Findings.files, List.mem_eraseDups, List.mem_append]
  exact Or.inl (List.mem_map.mpr ⟨d, hd, by simpa using hf⟩)

theorem sameCounts_of_compact {y : Style} {r r' : Findings}
    (h : Json.Alike (.record (compact y r)) (.record (compact y r'))) :
    SameCounts .compact r r' := by
  rw [compact_eq, compact_eq] at h
  -- A file has no group exactly if nothing counts for it.
  have hgroup (file : String) := (h.field "files" rfl rfl).entry file
  refine ⟨?_, fun _ => ((h.field "summary" rfl rfl).field "files" rfl rfl).nat, ?_⟩
  · intro name file
    rcases hgroup file with ⟨hn, hn'⟩ | hg
    · rw [uses_eq_zero hn, uses_eq_zero hn']
    · have hnames : (r.usages.filter (fun u => u.file == file)).map (·.name) =
          (r'.usages.filter (fun u => u.file == file)).map (·.name) := by
        refine Json.Alike.map_eq ?_ (hg.field "usages" rfl rfl)
        intro u v huv
        exact (huv.field "name" rfl rfl).string
      have hcount (r : Findings) : r.uses name file =
          ((r.usages.filter (fun u => u.file == file)).map (·.name)).countP (· == name) := by
        rw [List.countP_map, List.countP_filter]
        rfl
      rw [hcount, hcount, hnames]
  · intro _ file
    rcases hgroup file with ⟨hn, hn'⟩ | hg
    · rw [declared_eq_zero hn, declared_eq_zero hn']
    · have hlen := (hg.field "components" rfl rfl).items.length_eq
      simp only [groupOf, List.length_map] at hlen
      rw [Findings.declared, Findings.declared, List.countP_eq_length_filter,
        List.countP_eq_length_filter]
      exact hlen

theorem sameCounts_of_minimal {y : Style} {r r' : Findings}
    (h : Json.Alike (.record (minimal y r)) (.record (minimal y r'))) :
    SameCounts .minimal r r' := by
  rw [minimal_eq, minimal_eq] at h
  refine ⟨?_, fun hf => absurd rfl hf, fun hf => absurd rfl hf⟩
  intro name file
  have hzero (r : Findings) (hn : name ∉ (r.usages.map (·.name)).eraseDups) :
      r.uses name file = 0 := by
    rw [Findings.uses, List.countP_eq_zero]
    intro u hu hnf
    apply hn
    rw [List.mem_eraseDups]
    exact List.mem_map.mpr ⟨u, hu, by simpa using (Bool.and_eq_true_iff.mp hnf).1⟩
  rcases (h.field "props" rfl rfl).entry name with ⟨hn, hn'⟩ | hg
  · rw [hzero r hn, hzero r' hn']
  · have hfiles : (r.usages.filter (fun u => u.name == name)).map (·.file) =
        (r'.usages.filter (fun u => u.name == name)).map (·.file) := by
      refine Json.Alike.map_eq ?_ hg
      intro u v huv
      exact (huv.field "file" rfl rfl).string
    have hcount (r : Findings) : r.uses name file =
        ((r.usages.filter (fun u => u.name == name)).map (·.file)).countP (· == file) := by
      rw [List.countP_map, List.countP_filter, Findings.uses]
      congr 1
      funext u
      exact Bool.and_comm _ _
    rw [hcount, hcount, hfiles]

/-- Reports that are alike give the same counts. -/
theorem sameCounts_of_shape {f : Format} {y : Style} {r r' : Findings}
    (h : Json.Alike (.record (shape f y r)) (.record (shape f y r'))) : SameCounts f r r' := by
  cases f with
  | full => exact sameCounts_of_full h
  | compact => exact sameCounts_of_compact h
  | minimal => exact sameCounts_of_minimal h

/-- A report depends on the usages and, but for the shortest, on the declarations and the numbers of
files. -/
theorem shape_congr {f : Format} {y : Style} {r r' : Findings} (hu : r.usages = r'.usages)
    (hr : f ≠ .minimal →
      r.analyzed = r'.analyzed ∧ r.skipped = r'.skipped ∧ r.components = r'.components) :
    shape f y r = shape f y r' := by
  cases f with
  | full =>
    obtain ⟨ha, hs, hc⟩ := hr (by decide)
    simp only [shape, full, hu, ha, hs, hc]
  | compact =>
    obtain ⟨ha, _, hc⟩ := hr (by decide)
    simp only [shape, compact, fileGroups, hu, ha, hc]
  | minimal => simp only [shape, minimal, propGroups, hu]

end Report

end PropAtlas
