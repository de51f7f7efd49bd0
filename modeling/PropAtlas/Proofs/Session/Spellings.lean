import PropAtlas.Proofs.Component.Origin
import PropAtlas.Proofs.Report.Counts
import PropAtlas.Proofs.Session.Readings

/-! A file may be reached under several names, and its analysis names the file as it was reached.
What is remembered for one name is told for all others that lead to the same file. A report shows it
unless there is nothing to show: every record counts for the file that it names, so a record under
another name makes one count too large and another too small. -/

namespace PropAtlas.Session
open Component (Selection)

/-! ### Names in an analysis -/

/-- An analysis names the file as it was reached. -/
theorem Reading.file_of_analysis {x : Reading} {f : FileAnalysis} (h : x.analysis = some f) :
    f.file = x.file ∧ (∀ d ∈ f.declarations, d.file = x.file) ∧
      ∀ u ∈ f.usages, u.file = x.file := by
  obtain ⟨bytes, _, p, _, hp, rfl⟩ := analysis_eq_some h
  have hfile : p.file = x.file := by
    unfold SourceFile.read at hp
    split_ifs at hp
    split at hp
    · cases hp
    · dsimp only at hp
      split at hp
      · cases hp
        rfl
      · cases hp
  rw [← hfile]
  exact ⟨rfl, fun d hd => Component.file_of_mem_declarations hd,
    fun u hu => Component.file_of_mem_usages hu⟩

/-- What is remembered for a reading was said by a reading with the same key. -/
theorem exists_reading_of_known {past : Reading → Prop} {a : Analyzer} (hr : Recalls past a.cache)
    {x : Reading} {k : FileAnalysis} (hk : a.known x = some k) :
    ∃ y, past y ∧ y.key = x.key ∧ y.selection = x.selection ∧ y.real = x.real ∧
      y.analysis = some k := by
  obtain ⟨key, hx, hmem⟩ := Analyzer.mem_of_known hk
  obtain ⟨y, hy, hyk, hya⟩ := hr (key, k) hmem
  obtain ⟨_, _, _, rfl⟩ := Reading.key_eq_some_iff.mp hx
  obtain ⟨_, _, _, hkey⟩ := Reading.key_eq_some_iff.mp hyk
  obtain ⟨hreal, _, _, ho⟩ := Key.mk.inj hkey
  exact ⟨y, hy, hyk.trans hx.symm, ho.symm, hreal.symm, hya⟩

/-! ### Sums over files -/

/-- A number that adds up over files. -/
def Additive (count : Findings → Nat) : Prop :=
  ∀ o os, count (collect (o :: os)) = count (collect [o]) + count (collect os)

theorem Additive.le_of_le {count : Findings → Nat} (hc : Additive count) {α : Type}
    {told told' : α → Option FileAnalysis} {xs : List α}
    (hle : ∀ x ∈ xs, count (collect [told x]) ≤ count (collect [told' x])) :
    count (collect (xs.map told)) ≤ count (collect (xs.map told')) := by
  induction xs with
  | nil => exact Nat.le_refl _
  | cons z xs ih =>
    have hrest := ih (fun w hw => hle w (List.mem_cons_of_mem _ hw))
    rw [List.map_cons, List.map_cons, hc (told z), hc (told' z)]
    exact Nat.add_le_add (hle z List.mem_cons_self) hrest

/-- Sums that agree agree in every term if no term of one exceeds that of the other. -/
theorem Additive.eq_of_le {count : Findings → Nat} (hc : Additive count) {α : Type}
    {told told' : α → Option FileAnalysis} {xs : List α}
    (hle : ∀ x ∈ xs, count (collect [told x]) ≤ count (collect [told' x]))
    (h : count (collect (xs.map told)) = count (collect (xs.map told'))) :
    ∀ x ∈ xs, count (collect [told x]) = count (collect [told' x]) := by
  induction xs with
  | nil =>
    intro x hx
    exact absurd hx List.not_mem_nil
  | cons z xs ih =>
    rw [List.map_cons, List.map_cons, hc (told z), hc (told' z)] at h
    have hz := hle z List.mem_cons_self
    have hxs := hc.le_of_le (fun w hw => hle w (List.mem_cons_of_mem _ hw))
    intro x hx
    rcases List.mem_cons.mp hx with rfl | hx
    · omega
    · exact ih (fun w hw => hle w (List.mem_cons_of_mem _ hw)) (by omega) x hx

/-- Counts by file that a reading adds to under its own name only. -/
structure ByFile (count : String → Findings → Nat) : Prop where
  additive : ∀ file, Additive (count file)
  named : ∀ file (x : Reading), count file (collect [x.analysis]) ≠ 0 → x.file = file

theorem collect_cons (o : Option FileAnalysis) (os : List (Option FileAnalysis)) :
    (collect (o :: os)).analyzed = (collect [o]).analyzed + (collect os).analyzed ∧
    (collect (o :: os)).skipped = (collect [o]).skipped + (collect os).skipped ∧
    (collect (o :: os)).components = (collect [o]).components ++ (collect os).components ∧
    (collect (o :: os)).usages = (collect [o]).usages ++ (collect os).usages := by
  cases o with
  | none => simp [collect, Nat.add_comm]
  | some f => simp [collect, Nat.add_comm]

theorem additive_analyzed : Additive Findings.analyzed := fun o os => (collect_cons o os).1

theorem mem_collect_one {o : Option FileAnalysis} :
    (∀ d ∈ (collect [o]).components, ∃ f, o = some f ∧ d ∈ f.declarations) ∧
    ∀ u ∈ (collect [o]).usages, ∃ f, o = some f ∧ u ∈ f.usages := by
  cases o with
  | none => simp [collect]
  | some f => simp [collect]

theorem byFile_declared : ByFile (fun file r => r.declared file) := by
  refine ⟨?_, ?_⟩
  · intro file o os
    change (collect (o :: os)).declared file = _
    rw [Findings.declared, (collect_cons o os).2.2.1, List.countP_append]
    rfl
  · intro file x hx
    obtain ⟨d, hd, hf⟩ := List.countP_pos_iff.mp (Nat.pos_of_ne_zero hx)
    obtain ⟨f, hxf, hdf⟩ := mem_collect_one.1 d hd
    rw [← (Reading.file_of_analysis hxf).2.1 d hdf]
    exact eq_of_beq hf

theorem byFile_uses (name : String) : ByFile (fun file r => r.uses name file) := by
  refine ⟨?_, ?_⟩
  · intro file o os
    change (collect (o :: os)).uses name file = _
    rw [Findings.uses, (collect_cons o os).2.2.2, List.countP_append]
    rfl
  · intro file x hx
    obtain ⟨u, hu, hf⟩ := List.countP_pos_iff.mp (Nat.pos_of_ne_zero hx)
    obtain ⟨f, hxf, huf⟩ := mem_collect_one.2 u hu
    rw [← (Reading.file_of_analysis hxf).2.2 u huf]
    exact eq_of_beq (Bool.and_eq_true_iff.mp hf).2

/-! ### Files that are told under another name -/

section OneHost

variable {h : Host} {o : Selection} {a : Analyzer} {xs : List Reading}

/-- What is remembered under the name of a reading is what the file says. -/
theorem analysis_of_known (hr : Recalls (·.host = h) a.cache) {x : Reading} (hx : x.host = h)
    {k : FileAnalysis} (hk : a.known x = some k) (hf : k.file = x.file) : x.analysis = some k := by
  obtain ⟨y, hy, _, hyo, _, hya⟩ := exists_reading_of_known hr hk
  have hyf : y.file = x.file := (Reading.file_of_analysis hya).1.symm.trans hf
  have hyx : y = x := Reading.ext (hy.trans hx.symm) hyo hyf
  rw [← hyx]
  exact hya

/-- If the counts of all files stay the same although a file is told under another name, then what is
told does not count: the other name would have it once more than it should. -/
theorem count_told_eq_zero {count : String → Findings → Nat} (hc : ByFile count)
    (hr : Recalls (·.host = h) a.cache) (hxs : ∀ x ∈ xs, x.host = h ∧ x.selection = o)
    (hsum : ∀ file, count file (collect (xs.map a.tells)) =
      count file (collect (xs.map Reading.analysis)))
    {x : Reading} (hx : x ∈ xs) {k : FileAnalysis} (hk : a.known x = some k)
    (hne : k.file ≠ x.file) : count k.file (collect [some k]) = 0 := by
  obtain ⟨y, hy, hyk, hyo, _, hya⟩ := exists_reading_of_known hr hk
  have hyf : k.file = y.file := (Reading.file_of_analysis hya).1
  have hle : ∀ z ∈ xs, count k.file (collect [z.analysis]) ≤
      count k.file (collect [a.tells z]) := by
    intro z hz
    by_cases hzf : z.file = k.file
    · -- A reading under the other name is the one that was remembered, and it is told as it is.
      have hzo : z.selection = y.selection :=
        ((hxs z hz).2.trans (hxs x hx).2.symm).trans hyo.symm
      have hzy : z = y := Reading.ext ((hxs z hz).1.trans hy.symm) hzo (hzf.trans hyf)
      have hzk : a.known z = some k := by
        rw [hzy, Analyzer.known_eq_of_key hyk, hk]
      rw [Analyzer.tells_of_known hzk, hzy, hya]
    · have hzero : count k.file (collect [z.analysis]) = 0 := by
        by_contra hn
        exact hzf (hc.named k.file z hn)
      omega
  have heq := (hc.additive k.file).eq_of_le hle (hsum k.file).symm x hx
  rw [Analyzer.tells_of_known hk] at heq
  rw [← heq]
  by_contra hn
  exact hne (hc.named k.file x hn).symm

/-- Nor does what the file says: nothing is told under its own name. -/
theorem count_own_eq_zero {count : String → Findings → Nat} (hc : ByFile count)
    (hr : Recalls (·.host = h) a.cache) (hxs : ∀ x ∈ xs, x.host = h ∧ x.selection = o)
    (hsum : ∀ file, count file (collect (xs.map a.tells)) =
      count file (collect (xs.map Reading.analysis)))
    {x : Reading} (hx : x ∈ xs) {k : FileAnalysis} (hk : a.known x = some k)
    (hne : k.file ≠ x.file) : count x.file (collect [x.analysis]) = 0 := by
  have hother {w : Reading} (hw : w.file ≠ x.file) : count x.file (collect [w.analysis]) = 0 := by
    by_contra hn
    exact hw (hc.named x.file w hn)
  have hle : ∀ z ∈ xs, count x.file (collect [a.tells z]) ≤
      count x.file (collect [z.analysis]) := by
    intro z hz
    cases hzk : a.known z with
    | none => rw [Analyzer.tells_of_unknown hzk]
    | some g =>
      obtain ⟨w, hw, hwk, hwo, _, hwa⟩ := exists_reading_of_known hr hzk
      have hwf : w.file ≠ x.file := by
        intro hwx
        -- Then `z` has the key of `x`, for which the analysis under the other name is remembered.
        have hwe : w = x := Reading.ext (hw.trans (hxs x hx).1.symm)
          (hwo.trans ((hxs z hz).2.trans (hxs x hx).2.symm)) hwx
        have hgk : some g = some k := by
          rw [← hzk, ← hk, ← hwe, Analyzer.known_eq_of_key hwk]
        cases hgk
        exact hne ((Reading.file_of_analysis hwa).1.trans hwx)
      rw [Analyzer.tells_of_known hzk, ← hwa, hother hwf]
      exact Nat.zero_le _
  have heq := (hc.additive x.file).eq_of_le hle (hsum x.file) x hx
  obtain ⟨y, _, _, _, _, hya⟩ := exists_reading_of_known hr hk
  rw [← heq, Analyzer.tells_of_known hk, ← hya]
  apply hother
  rw [← (Reading.file_of_analysis hya).1]
  exact hne

/-- A report in a format shows nothing of a file but, at most, that it was analyzed. -/
def Blank (f : Report.Format) (told : Option FileAnalysis) : Prop :=
  (∀ g ∈ told, g.usages = []) ∧ (f ≠ .minimal → ∃ g, told = some g ∧ g.declarations = [])

/-- Whatever is remembered for the readings was said under their names, or does not show. -/
def Undisguised (a : Analyzer) (f : Report.Format) (xs : List Reading) : Prop :=
  ∀ x ∈ xs, ∀ k, a.known x = some k → k.file = x.file ∨ (Blank f (some k) ∧ Blank f x.analysis)

/-- Counts of zero leave nothing to show. -/
theorem blank_of_counts {f : Report.Format} {x : Reading}
    (hu : ∀ name, (collect [x.analysis]).uses name x.file = 0)
    (hs : f ≠ .minimal → ∃ g, x.analysis = some g)
    (hd : f ≠ .minimal → (collect [x.analysis]).declared x.file = 0) : Blank f x.analysis := by
  constructor
  · intro g hg
    have hg : x.analysis = some g := hg
    rw [List.eq_nil_iff_forall_not_mem]
    intro u hug
    have hz := hu u.name
    rw [hg, Findings.uses, List.countP_eq_zero] at hz
    refine hz u (by simpa [collect] using hug) ?_
    rw [(Reading.file_of_analysis hg).2.2 u hug]
    simp
  · intro hf
    obtain ⟨g, hg⟩ := hs hf
    refine ⟨g, hg, ?_⟩
    rw [List.eq_nil_iff_forall_not_mem]
    intro d hdg
    have hz := hd hf
    rw [hg, Findings.declared, List.countP_eq_zero] at hz
    refine hz d (by simpa [collect] using hdg) ?_
    rw [(Reading.file_of_analysis hg).2.1 d hdg]
    simp

theorem exists_analysis_of_analyzed
    (h : (collect (xs.map a.tells)).analyzed = (collect (xs.map Reading.analysis)).analyzed)
    {x : Reading} (hx : x ∈ xs) {k : FileAnalysis} (hk : a.known x = some k) :
    ∃ g, x.analysis = some g := by
  have hle : ∀ z ∈ xs, (collect [z.analysis]).analyzed ≤ (collect [a.tells z]).analyzed := by
    intro z _
    cases hz : a.known z with
    | none => rw [Analyzer.tells_of_unknown hz]
    | some g =>
      rw [Analyzer.tells_of_known hz]
      cases z.analysis <;> simp [collect]
  have heq := additive_analyzed.eq_of_le hle h.symm x hx
  rw [Analyzer.tells_of_known hk] at heq
  cases hg : x.analysis with
  | none =>
    rw [hg] at heq
    cases heq
  | some g => exact ⟨g, rfl⟩

/-- If a report cannot be told from one of what the files say, then nothing shows that was
remembered under another name. -/
theorem undisguised_of_sameCounts {f : Report.Format} (hr : Recalls (·.host = h) a.cache)
    (hxs : ∀ x ∈ xs, x.host = h ∧ x.selection = o)
    (hc : Report.SameCounts f (collect (xs.map a.tells)) (collect (xs.map Reading.analysis))) :
    Undisguised a f xs := by
  intro x hx k hk
  by_cases hne : k.file = x.file
  · exact Or.inl hne
  refine Or.inr ?_
  have hsum (name file : String) := hc.uses name file
  obtain ⟨y, _, _, _, _, hya⟩ := exists_reading_of_known hr hk
  have hyf : k.file = y.file := (Reading.file_of_analysis hya).1
  constructor
  · have hu (name : String) := count_told_eq_zero (byFile_uses name) hr hxs (hsum name) hx hk hne
    have hd (hf : f ≠ .minimal) :=
      count_told_eq_zero byFile_declared hr hxs (hc.declared hf) hx hk hne
    rw [hyf, ← hya] at hu hd
    rw [← hya]
    exact blank_of_counts hu (fun _ => ⟨k, hya⟩) hd
  · exact blank_of_counts
      (fun name => count_own_eq_zero (byFile_uses name) hr hxs (hsum name) hx hk hne)
      (fun hf => exists_analysis_of_analyzed (hc.analyzed hf) hx hk)
      (fun hf => count_own_eq_zero byFile_declared hr hxs (hc.declared hf) hx hk hne)

/-- What adds up over files depends on what each of them adds. -/
theorem collect_congr {α β : Type} {view : Findings → β} {join : β → β → β}
    (hj : ∀ o os, view (collect (o :: os)) = join (view (collect [o])) (view (collect os)))
    {told told' : α → Option FileAnalysis} {ys : List α}
    (heq : ∀ y ∈ ys, view (collect [told y]) = view (collect [told' y])) :
    view (collect (ys.map told)) = view (collect (ys.map told')) := by
  induction ys with
  | nil => rfl
  | cons y ys ih =>
    have hrest := ih (fun z hz => heq z (List.mem_cons_of_mem _ hz))
    rw [List.map_cons, List.map_cons, hj (told y), hj (told' y), heq y List.mem_cons_self, hrest]

theorem usages_of_blank {f : Report.Format} {told : Option FileAnalysis} (hb : Blank f told) :
    (collect [told]).usages = [] := by
  cases told with
  | none => rfl
  | some g => simpa [collect] using hb.1 g rfl

/-- A report in which nothing is disguised is a report of what the files say. -/
theorem shape_of_undisguised {f : Report.Format} (hr : Recalls (·.host = h) a.cache)
    (hxs : ∀ x ∈ xs, x.host = h ∧ x.selection = o) (hu : Undisguised a f xs) (y : Report.Style) :
    Report.shape f y (collect (xs.map a.tells)) =
      Report.shape f y (collect (xs.map Reading.analysis)) := by
  have hcases : ∀ x ∈ xs, a.tells x = x.analysis ∨ (Blank f (a.tells x) ∧ Blank f x.analysis) := by
    intro x hx
    cases hk : a.known x with
    | none => exact Or.inl (Analyzer.tells_of_unknown hk)
    | some k =>
      rw [Analyzer.tells_of_known hk]
      rcases hu x hx k hk with hf | hb
      · exact Or.inl (analysis_of_known hr (hxs x hx).1 hk hf).symm
      · exact Or.inr hb
  apply Report.shape_congr
  · apply collect_congr (fun o os => (collect_cons o os).2.2.2)
    intro x hx
    rcases hcases x hx with he | ⟨hb, hb'⟩
    · rw [he]
    · rw [usages_of_blank hb, usages_of_blank hb']
  · intro hf
    have hterm : ∀ x ∈ xs, (collect [a.tells x]).analyzed = (collect [x.analysis]).analyzed ∧
        (collect [a.tells x]).skipped = (collect [x.analysis]).skipped ∧
        (collect [a.tells x]).components = (collect [x.analysis]).components := by
      intro x hx
      rcases hcases x hx with he | ⟨hb, hb'⟩
      · rw [he]
        exact ⟨rfl, rfl, rfl⟩
      · obtain ⟨g, hg, hgd⟩ := hb.2 hf
        obtain ⟨g', hg', hgd'⟩ := hb'.2 hf
        rw [hg, hg']
        simp [collect, hgd, hgd']
    exact ⟨collect_congr (fun o os => (collect_cons o os).1) (fun x hx => (hterm x hx).1),
      collect_congr (fun o os => (collect_cons o os).2.1) (fun x hx => (hterm x hx).2.1),
      collect_congr (fun o os => (collect_cons o os).2.2.1) (fun x hx => (hterm x hx).2.2)⟩

end OneHost

end PropAtlas.Session
