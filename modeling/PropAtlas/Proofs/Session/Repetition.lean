import PropAtlas.Proofs.FileSystem.Discovery
import PropAtlas.Proofs.Session.Spellings
import Mathlib.Tactic.TFAE

/-! Asking for the same analysis again, over files that do not change. The answers are those of a
fresh look at the files exactly if nothing that was remembered under another name shows, which a link
between two source files is enough to break. -/

namespace PropAtlas.Session
open Component (Selection)

/-! ### Asking again -/

/-- Answers that say the same, whatever the order of fields. -/
def SameAnswer : Except Fault Answer → Except Fault Answer → Prop
  | .ok r, .ok s => r.toJson.Alike s.toJson
  | .error f, .error g => f = g
  | _, _ => False

theorem sameAnswer_of_eq {r s : Except Fault Answer}
    (h : r.map Answer.toJson = s.map Answer.toJson) : SameAnswer r s := by
  cases r with
  | error f =>
    cases s with
    | error g => exact Except.error.inj h
    | ok s => cases h
  | ok r =>
    cases s with
    | error g => cases h
    | ok s =>
      have hj : r.toJson = s.toJson := Except.ok.inj h
      rw [SameAnswer, hj]
      exact .refl _

/-- A request for an analysis fails whatever is told, or it is answered by a report. -/
theorem analyze_cases (a : Analyzer) (h : Host) (reach : Reach) (o : Selection) (given : Json)
    (y : Report.Style) :
    (a.readings h (.analyze reach o given y) = [] ∧
      ∃ f, ∀ told, a.concluded h (.analyze reach o given y) told = .error f) ∨
    ∃ f o', Analyzer.formatOf given = .ok f ∧
      (∀ x ∈ a.readings h (.analyze reach o given y), x.host = h ∧ x.selection = o') ∧
      ∀ told, a.concluded h (.analyze reach o given y) told =
        .ok (.findings f y (collect ((a.readings h (.analyze reach o given y)).map told))) := by
  rcases a.request_cases h (.analyze reach o given y) with hfail | ⟨p, hp, hxs, htold⟩
  · exact Or.inl hfail
  · refine Or.inr ?_
    cases hf : Analyzer.formatOf given with
    | error e =>
      rw [Analyzer.plan, hf] at hp
      cases hp
    | ok f =>
      rw [Analyzer.plan, hf] at hp
      cases hp
      exact ⟨f, _, rfl, hxs, htold⟩

section Analyze

variable {h : Host} {a : Analyzer} (reach : Reach) (o : Selection) (given : Json) (y : Report.Style)

theorem shown_of_undisguised (hr : Recalls (·.host = h) a.cache)
    (hu : ∀ f, Analyzer.formatOf given = .ok f →
      Undisguised a f (a.readings h (.analyze reach o given y))) :
    (a.ask h (.analyze reach o given y)).1.map Answer.toJson =
      (a.concluded h (.analyze reach o given y) Reading.analysis).map Answer.toJson := by
  rw [Analyzer.ask_eq]
  rcases analyze_cases a h reach o given y with ⟨_, e, he⟩ | ⟨f, o', hf, hxs, htold⟩
  · rw [he, he]
  · have hshape := shape_of_undisguised hr hxs (hu f hf) y
    rw [htold, htold, Except.map, Except.map, Answer.toJson, Answer.toJson, hshape]

theorem undisguised_of_sameAnswer (hr : Recalls (·.host = h) a.cache)
    (hs : SameAnswer (a.ask h (.analyze reach o given y)).1
      (a.concluded h (.analyze reach o given y) Reading.analysis)) :
    ∀ f, Analyzer.formatOf given = .ok f →
      Undisguised a f (a.readings h (.analyze reach o given y)) := by
  rw [Analyzer.ask_eq] at hs
  intro f hf
  rcases analyze_cases a h reach o given y with ⟨hnil, _⟩ | ⟨f', o', hf', hxs, htold⟩
  · rw [hnil]
    intro x hx
    exact absurd hx List.not_mem_nil
  · cases hf.symm.trans hf'
    rw [htold, htold] at hs
    exact undisguised_of_sameCounts hr hxs (Report.sameCounts_of_shape hs)

end Analyze

namespace Analyzer

/-- The analyzer after requests on a host that does not change. -/
def after (a : Analyzer) (h : Host) : List Request → Analyzer
  | [] => a
  | q :: qs => (a.ask h q).2.after h qs

theorem config_after (a : Analyzer) (h : Host) (qs : List Request) :
    (a.after h qs).config = a.config := by
  induction qs generalizing a with
  | nil => rfl
  | cons q qs ih => rw [after, ih, config_ask]

theorem recalls_after {past : Reading → Prop} {a : Analyzer} {h : Host} {qs : List Request}
    (hr : Recalls past a.cache) (hqs : ∀ q ∈ qs, ∀ x ∈ a.readings h q, past x) :
    Recalls past (a.after h qs).cache := by
  induction qs generalizing a with
  | nil => exact hr
  | cons q qs ih =>
    apply ih (recalls_ask hr (hqs q List.mem_cons_self))
    intro q' hq' x hx
    rw [readings_of_config (a.config_ask h q)] at hx
    exact hqs q' (List.mem_cons_of_mem _ hq') x hx

/-- What is remembered before and after a request stems from it and from the requests before it. -/
theorem recalls_before_and_after (c : Config) (h : Host) (earlier : List Request) (q : Request) :
    let a := (Analyzer.new c).after h earlier
    Recalls (fun z => ∃ q' ∈ earlier ++ [q], z ∈ a.readings h q') a.cache ∧
    Recalls (fun z => ∃ q' ∈ earlier ++ [q], z ∈ a.readings h q') (a.ask h q).2.cache := by
  intro a
  have hconfig : a.config = (Analyzer.new c).config := (Analyzer.new c).config_after h earlier
  have hbefore : Recalls (fun z => ∃ q' ∈ earlier ++ [q], z ∈ a.readings h q') a.cache := by
    apply recalls_after (recalls_empty _ _)
    intro q' hq' z hz
    refine ⟨q', List.mem_append_left _ hq', ?_⟩
    rw [readings_of_config hconfig]
    exact hz
  refine ⟨hbefore, recalls_ask hbefore ?_⟩
  intro z hz
  exact ⟨q, List.mem_append_right _ List.mem_cons_self, hz⟩

end Analyzer

/-- What is remembered of files that are reached under one name each is not disguised. -/
theorem undisguised_of_names {past : Reading → Prop} {a : Analyzer} (hr : Recalls past a.cache)
    {xs : List Reading} (hn : ∀ x ∈ xs, ∀ z, past z → z.selection = x.selection → z.real = x.real →
      z.file = x.file) (f : Report.Format) : Undisguised a f xs := by
  intro x hx k hk
  obtain ⟨z, hz, _, hzo, hzr, hza⟩ := exists_reading_of_known hr hk
  exact Or.inl ((Reading.file_of_analysis hza).1.trans (hn x hx z hz hzo hzr))

/-- Asking for an analysis twice in a row gives what a fresh look at the files gives exactly if
nothing that was remembered under another name shows, before the first time and before the second.
Nothing of that kind is remembered if no file of the request was ever reached under another name. -/
theorem analyze_repeatable_iff (c : Config) (h : Host) (earlier : List Request) (reach : Reach)
    (o : Selection) (given : Json) (y : Report.Style) :
    let q : Request := .analyze reach o given y
    let a := (Analyzer.new c).after h earlier
    let b := (a.ask h q).2
    let fresh := ((Analyzer.new { c with cacheEnabled := false }).ask h q).1
    [(a.ask h q).1.map Answer.toJson = (b.ask h q).1.map Answer.toJson ∧
        (a.ask h q).1.map Answer.toJson = fresh.map Answer.toJson,
      SameAnswer (a.ask h q).1 fresh ∧ SameAnswer (b.ask h q).1 fresh,
      ∀ f, Analyzer.formatOf given = .ok f →
        Undisguised a f (a.readings h q) ∧ Undisguised b f (a.readings h q)].TFAE ∧
    ((∀ x ∈ a.readings h q, ∀ q' ∈ earlier ++ [q], ∀ z ∈ a.readings h q',
        z.selection = x.selection → z.real = x.real → z.file = x.file) →
      ∀ f, Undisguised a f (a.readings h q) ∧ Undisguised b f (a.readings h q)) := by
  intro q a b fresh
  obtain ⟨hra, hrb⟩ := Analyzer.recalls_before_and_after c h earlier q
  have hhost : ∀ z, (∃ q' ∈ earlier ++ [q], z ∈ a.readings h q') → z.host = h := by
    rintro z ⟨q', _, hz⟩
    exact Analyzer.host_of_mem_readings hz
  have hconfig : a.config = (Analyzer.new c).config := (Analyzer.new c).config_after h earlier
  have hbconfig : b.config = a.config := a.config_ask h q
  have hfresh : fresh = a.concluded h q Reading.analysis :=
    Analyzer.ask_of_disabled (by rw [hconfig]; rfl) h q
  have hbfresh : fresh = b.concluded h q Reading.analysis :=
    Analyzer.ask_of_disabled (by rw [hbconfig, hconfig]; rfl) h q
  have hbreadings : b.readings h q = a.readings h q := Analyzer.readings_of_config hbconfig h q
  constructor
  · tfae_have 1 → 2 := by
      rintro ⟨hab, hf⟩
      exact ⟨sameAnswer_of_eq hf, sameAnswer_of_eq (hab.symm.trans hf)⟩
    tfae_have 2 → 3 := by
      rintro ⟨ha, hb⟩ f hf
      rw [hfresh] at ha
      rw [hbfresh] at hb
      have hub := undisguised_of_sameAnswer reach o given y (hrb.mono hhost) hb f hf
      rw [hbreadings] at hub
      exact ⟨undisguised_of_sameAnswer reach o given y (hra.mono hhost) ha f hf, hub⟩
    tfae_have 3 → 1 := by
      intro hu
      have ha := shown_of_undisguised reach o given y (hra.mono hhost) (fun f hf => (hu f hf).1)
      have hb := shown_of_undisguised reach o given y (hrb.mono hhost) (fun f hf => by
        rw [hbreadings]
        exact (hu f hf).2)
      rw [← hfresh] at ha
      rw [← hbfresh] at hb
      exact ⟨ha.trans hb.symm, ha⟩
    tfae_finish
  · intro hnames f
    have hn : ∀ x ∈ a.readings h q, ∀ z, (∃ q' ∈ earlier ++ [q], z ∈ a.readings h q') →
        z.selection = x.selection → z.real = x.real → z.file = x.file := by
      rintro x hx z ⟨q', hq', hz⟩
      exact hnames x hx q' hq' z hz
    exact ⟨undisguised_of_names hra hn f, undisguised_of_names hrb hn f⟩

/-! ### A file and a link to it -/

def linked : Host where
  root := .directory [("a.tsx", .file "<A b/>;".toUTF8.toList 0), ("b.tsx", .link "a.tsx")]

def overview : Request := .analyze ⟨"/", none, none⟩ {} (.string "minimal") {}

theorem sourceFiles_linked : linked.sourceFiles {} "/" = .ok ["/a.tsx", "/b.tsx"] := by
  have hleaves : FileSystem.leaves {} 1 linked.root.listing = [["a.tsx"], ["b.tsx"]] := by
    simp [FileSystem.leaves, linked, FileSystem.Entry.listing, FileSystem.Scope.admits]
  apply Host.sourceFiles_of_found rfl rfl hleaves
  · rw [FileSystem.extendAll_eq]
    decide
  · decide

theorem readings_linked {a : Analyzer} (ha : a.config = {}) : a.readings linked overview =
    [⟨linked, {}, "/a.tsx"⟩, ⟨linked, {}, "/b.tsx"⟩] := by
  have hplan : Analyzer.plan overview =
      .ok ⟨⟨"/", none, none⟩, {}, fun r => .ok (.findings .minimal {} r)⟩ := rfl
  have hscope : a.scope ⟨"/", none, none⟩ = {} := by
    rw [Analyzer.scope, ha]
    rfl
  rw [Analyzer.readings, hplan]
  dsimp only
  rw [hscope, sourceFiles_linked]
  rfl

/-- After one analysis of a file and a link to it, the file is known by the name of the link, and a
second analysis does not give what the first one gave. -/
theorem analyze_differs_through_link :
    ¬ SameAnswer (((Analyzer.new {}).ask linked overview).2.ask linked overview).1
      ((Analyzer.new {}).ask linked overview).1 := by
  let a := Analyzer.new {}
  let b := (a.ask linked overview).2
  intro hs
  have hr : Recalls (·.host = linked) b.cache :=
    Analyzer.recalls_ask (recalls_empty _ _) (fun _ hx => Analyzer.host_of_mem_readings hx)
  -- The first time nothing is known, so the first answer is that of a fresh look.
  have htold (x : Reading) : a.tells x = x.analysis := by
    cases hk : a.known x with
    | none => exact Analyzer.tells_of_unknown hk
    | some k =>
      obtain ⟨_, _, hmem⟩ := Analyzer.mem_of_known hk
      exact absurd hmem List.not_mem_nil
  have hfirst : (a.ask linked overview).1 = b.concluded linked overview Reading.analysis := by
    have hscope : a.scope = b.scope := by
      funext r
      rw [Analyzer.scope, Analyzer.scope, a.config_ask linked overview]
    calc (a.ask linked overview).1
      _ = a.concluded linked overview a.tells := by rw [Analyzer.ask_eq]
      _ = a.concluded linked overview Reading.analysis :=
        Analyzer.concluded_congr (fun x _ => htold x)
      _ = b.concluded linked overview Reading.analysis := by rw [Analyzer.concluded_of_scope hscope]
  -- Of the two names, the link comes last, and what it was read for is what is kept.
  have hknown : (b.known ⟨linked, {}, "/a.tsx"⟩).map (fun k => (k.file, k.usages.length)) =
      some ("/b.tsx", 1) := by
    rw [show b = _ from congrArg Prod.snd (a.ask_eq linked overview), readings_linked rfl]
    decide +kernel
  obtain ⟨k, hk, hkf⟩ := Option.map_eq_some_iff.mp hknown
  obtain ⟨hfile, hlen⟩ := Prod.mk.inj hkf
  rw [hfirst] at hs
  have hu : Undisguised b .minimal (b.readings linked overview) :=
    undisguised_of_sameAnswer _ _ _ _ hr hs .minimal rfl
  rw [readings_linked (a.config_ask linked overview)] at hu
  rcases hu _ List.mem_cons_self k hk with hf | ⟨hb, _⟩
  · rw [hfile] at hf
    exact absurd hf (by decide)
  · rw [hb.1 k rfl] at hlen
    cases hlen

end PropAtlas.Session
