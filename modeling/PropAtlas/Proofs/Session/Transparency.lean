import PropAtlas.Proofs.Session.Readings

/-! A session is a sequence of requests with changes of the files in between. If a file that kept
its time and its size kept its bytes, and no file is reached under two names, then an analyzer that
remembers answers every request as one that reads all files again. -/

namespace PropAtlas.Session
open FileSystem (Entry)

/-! ### Sessions -/

/-- What can happen to the files of a host. -/
inductive Change where
  | write (path : String) (content : List UInt8) (modified : Int)
  | link (path target : String)
  | directory (path : String)
  | remove (path : String)

def Change.apply (h : Host) : Change → Host
  | .write path content modified => h.writeFile path content modified
  | .link path target => h.makeLink path target
  | .directory path => h.makeDirectory path
  | .remove path => h.remove path

inductive Event where
  | change (c : Change)
  | request (q : Request)

namespace Analyzer

/-- The answers to the requests of a session. -/
def session (a : Analyzer) (h : Host) : List Event → List (Except Fault Answer)
  | [] => []
  | .change c :: es => a.session (c.apply h) es
  | .request q :: es => (a.ask h q).1 :: (a.ask h q).2.session h es

/-- Everything that the requests of a session look at. -/
def history (a : Analyzer) (h : Host) : List Event → List Reading
  | [] => []
  | .change c :: es => a.history (c.apply h) es
  | .request q :: es => a.readings h q ++ (a.ask h q).2.history h es

end Analyzer

/-- The host at the start of a session and after each change. -/
def moments (h : Host) : List Event → List Host
  | [] => [h]
  | .change c :: es => h :: moments (c.apply h) es
  | .request _ :: es => moments h es

theorem start_mem_moments (h : Host) (es : List Event) : h ∈ moments h es := by
  induction es with
  | nil => exact List.mem_singleton.mpr rfl
  | cons e es ih =>
    cases e with
    | change c => exact List.mem_cons_self
    | request q => exact ih

/-- A file is looked at as it is at some moment of the session. -/
theorem host_mem_moments {a : Analyzer} {h : Host} {es : List Event} {x : Reading}
    (hx : x ∈ a.history h es) : x.host ∈ moments h es := by
  induction es generalizing a h with
  | nil => exact absurd hx List.not_mem_nil
  | cons e es ih =>
    cases e with
    | change c => exact List.mem_cons_of_mem _ (ih hx)
    | request q =>
      rcases List.mem_append.mp hx with hx | hx
      · rw [Analyzer.host_of_mem_readings hx]
        exact start_mem_moments h _
      · exact ih hx

/-! ### Versions -/

/-- The bytes of a file and the time of its last change. -/
def version? : Entry → Option (List UInt8 × Int)
  | .file content modified => some (content, modified)
  | _ => none

/-- A file that has the same time and size on two hosts has the same bytes on both. -/
def SameVersions (h₁ h₂ : Host) : Prop :=
  ∀ place, ∀ v ∈ (h₁.root.get? place).bind version?, ∀ w ∈ (h₂.root.get? place).bind version?,
    v.2 = w.2 → v.1.length = w.1.length → v.1 = w.1

theorem mem_places_of_version {e : Entry} {place : List String} {v : List UInt8 × Int}
    (h : v ∈ (e.get? place).bind version?) : place ∈ e.places (fun c => (version? c).isSome) := by
  obtain ⟨c, hc, hv⟩ := Option.bind_eq_some_iff.mp h
  apply Entry.mem_places hc
  cases c with
  | file content modified => exact List.mem_singleton.mpr rfl
  | directory es => cases hv
  | link target => cases hv
  | device => cases hv

-- Only the places of files matter, so the condition can be checked.
instance (h₁ h₂ : Host) : Decidable (SameVersions h₁ h₂) :=
  decidable_of_iff (∀ place ∈ h₁.root.places (fun c => (version? c).isSome),
    ∀ v ∈ (h₁.root.get? place).bind version?, ∀ w ∈ (h₂.root.get? place).bind version?,
      v.2 = w.2 → v.1.length = w.1.length → v.1 = w.1)
    ⟨fun h place v hv => h place (mem_places_of_version hv) v hv, fun h place _ => h place⟩

/-- Readings with one key say the same. -/
def Coherent (past : Reading → Prop) : Prop :=
  ∀ x y k, past x → past y → x.key = some k → y.key = some k → x.analysis = y.analysis

theorem coherent_of_sameVersions {past : Reading → Prop}
    (hv : ∀ x y, past x → past y → SameVersions x.host y.host)
    (hn : ∀ x y, past x → past y → x.real = y.real → x.file = y.file) : Coherent past := by
  intro x y k hx hy hkx hky
  obtain ⟨b, m, hsx, rfl⟩ := Reading.key_eq_some_iff.mp hkx
  obtain ⟨b', m', hsy, hk⟩ := Reading.key_eq_some_iff.mp hky
  obtain ⟨hreal, hm, hlen, ho⟩ := Key.mk.inj hk
  -- Both files stand at the real path, each on its own host, so they are versions of one file.
  have hgx : x.host.root.get? x.real.names = some (.file b m) := Host.get?_resolve_of_stat hsx
  have hgy : y.host.root.get? x.real.names = some (.file b' m') := by
    rw [hreal]
    exact Host.get?_resolve_of_stat hsy
  have hb : b = b' := hv x y hx hy x.real.names (b, m) (by rw [hgx]; rfl) (b', m')
    (by rw [hgy]; rfl) hm hlen
  subst hb
  exact Reading.analysis_eq hsx hsy (hn x y hx hy hreal) ho

/-! ### Remembering and reading again -/

namespace Analyzer

/-- What is remembered is what the file says. -/
theorem tells_eq_analysis {past : Reading → Prop} {a : Analyzer} (hc : Coherent past)
    (hr : Recalls past a.cache) {x : Reading} (hx : past x) : a.tells x = x.analysis := by
  cases hknown : a.known x with
  | none => exact tells_of_unknown hknown
  | some f =>
    obtain ⟨k, hk, hmem⟩ := mem_of_known hknown
    obtain ⟨y, hy, hky, hf⟩ := hr (k, f) hmem
    rw [tells_of_known hknown, ← hf]
    exact hc y x k hy hx hky hk

/-- As long as what is remembered stems from coherent readings, remembering makes no difference. -/
theorem session_eq_of_recalls {past : Reading → Prop} (hc : Coherent past) {a u : Analyzer}
    (hu : u.config = { a.config with cacheEnabled := false }) (hr : Recalls past a.cache)
    {h : Host} {es : List Event} (hes : ∀ x ∈ a.history h es, past x) :
    a.session h es = u.session h es := by
  -- The readings `past` are fixed for the whole session; what is remembered stems from them at every
  -- moment, and the second analyzer remembers nothing.
  induction es generalizing a u h with
  | nil => rfl
  | cons e es ih =>
    cases e with
    | change c => exact ih hu hr hes
    | request q =>
      have hq : ∀ x ∈ a.readings h q, past x := fun x hx => hes x (List.mem_append_left _ hx)
      have hfirst : (a.ask h q).1 = (u.ask h q).1 := by
        rw [ask_of_disabled hu, ask_eq]
        exact concluded_congr (fun x hx => tells_eq_analysis hc hr (hq x hx))
      have hrest : (a.ask h q).2.session h es = (u.ask h q).2.session h es := by
        apply ih
        · rw [config_ask, config_ask, hu]
        · exact recalls_ask hr hq
        · exact fun x hx => hes x (List.mem_append_right _ hx)
      rw [session, session, hfirst, hrest]

end Analyzer

/-- Every request of a session is answered as if nothing was remembered. -/
theorem session_eq_uncached (c : Config) (h : Host) (es : List Event)
    (hversions : ∀ h₁ ∈ moments h es, ∀ h₂ ∈ moments h es, SameVersions h₁ h₂)
    (hnames : ∀ x ∈ (Analyzer.new c).history h es, ∀ y ∈ (Analyzer.new c).history h es,
      x.real = y.real → x.file = y.file) :
    (Analyzer.new c).session h es =
      (Analyzer.new { c with cacheEnabled := false }).session h es := by
  have hc : Coherent (· ∈ (Analyzer.new c).history h es) := by
    apply coherent_of_sameVersions
    · intro x y hx hy
      exact hversions _ (host_mem_moments hx) _ (host_mem_moments hy)
    · intro x y hx hy
      exact hnames x hx y hy
  exact Analyzer.session_eq_of_recalls hc rfl (recalls_empty _ _) (fun _ hx => hx)

def twoSources : Host where
  root := .directory [("a.tsx", .file "<A b/>;".toUTF8.toList 0),
    ("b.ts", .file "<B>c".toUTF8.toList 0)]

/-- Requests for one file and the other, with an edit that keeps the size, a deletion and a return
to the first version in between. -/
def edits : List Event :=
  let look (path : String) : Event :=
    .request (.analyze ⟨path, none, none⟩ {} (.string "full") {})
  [look "/a.tsx", look "/b.ts", .change (.write "/a.tsx" "<A c/>;".toUTF8.toList 1), look "/a.tsx",
    look "/a.tsx", .change (.remove "/b.ts"), look "/b.ts",
    .change (.write "/a.tsx" "<A b/>;".toUTF8.toList 0), look "/a.tsx"]

theorem session_eq_uncached_edits :
    (∀ h₁ ∈ moments twoSources edits, ∀ h₂ ∈ moments twoSources edits, SameVersions h₁ h₂) ∧
    (∀ x ∈ (Analyzer.new { cacheSize := 1 }).history twoSources edits,
      ∀ y ∈ (Analyzer.new { cacheSize := 1 }).history twoSources edits,
        x.real = y.real → x.file = y.file) ∧
    (Analyzer.new { cacheSize := 1 }).session twoSources edits =
      (Analyzer.new { cacheSize := 1, cacheEnabled := false }).session twoSources edits := by
  have hversions : ∀ h₁ ∈ moments twoSources edits, ∀ h₂ ∈ moments twoSources edits,
      SameVersions h₁ h₂ := by
    decide +kernel
  have hnames : ∀ x ∈ (Analyzer.new { cacheSize := 1 }).history twoSources edits,
      ∀ y ∈ (Analyzer.new { cacheSize := 1 }).history twoSources edits,
        x.real = y.real → x.file = y.file := by
    decide +kernel
  exact ⟨hversions, hnames, session_eq_uncached _ _ _ hversions hnames⟩

end PropAtlas.Session
