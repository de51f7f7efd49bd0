import PropAtlas.Proofs.FileSystem.RealPath
import PropAtlas.Proofs.Query.Search
import PropAtlas.Session.Analyzer

/-! Readings: the files that a request looks at, at the moment it is made. What an analyzer
remembers always stems from earlier readings, whatever was stored again or given up in between. -/

namespace PropAtlas.Session
open Component (Selection)
open FileSystem (Entry)

/-- A file that is looked at for a selection, as the host is at that moment. -/
@[ext]
structure Reading where
  host : Host
  selection : Selection
  file : String

namespace Reading

/-- The real path of the file. -/
def real (x : Reading) : Path := x.host.resolve (Path.ofString x.file)

def key (x : Reading) : Option Key := keyOf x.host x.selection x.file

/-- What the file says by itself. -/
def analysis (x : Reading) : Option FileAnalysis := analyzeFile x.host x.selection x.file

theorem key_eq_some_iff {x : Reading} {k : Key} :
    x.key = some k ↔ ∃ bytes modified, x.host.stat x.file = .ok (.file bytes modified) ∧
      k = ⟨x.real, modified, bytes.length, x.selection⟩ := by
  unfold key keyOf
  split
  · rename_i bytes modified hs
    simp only [hs, Option.some.injEq, Except.ok.injEq, Entry.file.injEq]
    constructor
    · rintro rfl
      exact ⟨bytes, modified, ⟨rfl, rfl⟩, rfl⟩
    · rintro ⟨_, _, ⟨rfl, rfl⟩, rfl⟩
      rfl
  · rename_i hs
    constructor
    · intro h
      cases h
    · rintro ⟨bytes, modified, h, _⟩
      exact absurd h (hs bytes modified)

/-- What a file says depends on its name, its bytes and the selection only. -/
theorem analysis_eq {x y : Reading} {bytes : List UInt8} {m n : Int}
    (hx : x.host.stat x.file = .ok (.file bytes m)) (hy : y.host.stat y.file = .ok (.file bytes n))
    (hf : x.file = y.file) (ho : x.selection = y.selection) : x.analysis = y.analysis := by
  rw [analysis, analysis, analyzeFile, analyzeFile, hx, hy, hf, ho]

theorem analysis_eq_some {x : Reading} {f : FileAnalysis} (h : x.analysis = some f) :
    ∃ bytes modified p, x.host.stat x.file = .ok (.file bytes modified) ∧
      SourceFile.read x.file bytes = .ok p ∧ f = p.analysis x.selection := by
  unfold analysis analyzeFile at h
  split at h
  · rename_i bytes modified hs
    split at h
    · rename_i p hp
      exact ⟨bytes, modified, p, hs, hp, (Option.some.inj h).symm⟩
    · cases h
  · cases h

end Reading

/-! ### Actions -/

namespace Analyzer

section Action

variable {α β : Type} {x : Action α} {f : α → Action β} {a b : Analyzer}

theorem run_bind_of_ok {r : α} (hx : x.run.run a = (.ok r, b)) :
    (x >>= f).run.run a = (f r).run.run b := by
  have hbind : (x >>= f).run.run a = (ExceptT.bindCont f (x.run.run a).1).run (x.run.run a).2 := rfl
  rw [hbind, hx]
  rfl

theorem run_bind_of_error {e : Fault} (hx : x.run.run a = (.error e, b)) :
    (x >>= f).run.run a = (.error e, b) := by
  have hbind : (x >>= f).run.run a = (ExceptT.bindCont f (x.run.run a).1).run (x.run.run a).2 := rfl
  rw [hbind, hx]
  rfl

theorem run_get (a : Analyzer) : (get : Action Analyzer).run.run a = (.ok a, a) := rfl

theorem run_lift (x : Except Fault α) (a : Analyzer) :
    (liftM x : Action α).run.run a = (x, a) := rfl

end Action

theorem scan_of_error {a : Analyzer} {h : Host} {r : Reach} {f : FileSystem.SearchFault}
    (hf : h.sourceFiles (a.scope r) r.path = .error f) (o : Selection) :
    (scan h r o).run.run a = (.error (.ofSearch r.path f), a) := by
  unfold scan
  rw [run_bind_of_ok (run_get a), hf]
  exact run_bind_of_error (run_lift _ a)

-- All files are looked up in `a`, and only then is anything kept.
theorem scan_of_ok {a : Analyzer} {h : Host} {r : Reach} {files : List String}
    (hf : h.sourceFiles (a.scope r) r.path = .ok files) (o : Selection) :
    (scan h r o).run.run a =
      (.ok (collect (files.map (fun file => outcome h o (a.slot h o file)))),
        { a with cache := files.foldl (fun c file =>
            remember c (a.slot h o file) (outcome h o (a.slot h o file))) a.cache }) := by
  unfold scan
  rw [run_bind_of_ok (run_get a), hf]
  refine (run_bind_of_ok (run_lift _ a)).trans ?_
  simp only [List.map_map, List.foldl_map]
  rfl

end Analyzer

/-! ### What is remembered -/

theorem mem_room {c : Cache Key FileAnalysis} {e : Key × FileAnalysis}
    (h : e ∈ c.room.entries) : e ∈ c.entries := by
  unfold Cache.room Cache.evict at h
  split_ifs at h
  · split at h
    · exact h
    · exact List.mem_of_mem_filter h
  · exact h

theorem mem_store {c : Cache Key FileAnalysis} {k : Key} {f : FileAnalysis} {e : Key × FileAnalysis}
    (h : e ∈ (c.store k f).entries) : e = (k, f) ∨ e ∈ c.entries := by
  unfold Cache.store Cache.add at h
  split_ifs at h
  · exact Table.mem_put h
  · exact (Table.mem_put h).imp_right mem_room

/-- Everything that is remembered was said by one of the readings, under its key. -/
def Recalls (past : Reading → Prop) (c : Cache Key FileAnalysis) : Prop :=
  ∀ e ∈ c.entries, ∃ x, past x ∧ x.key = some e.1 ∧ x.analysis = some e.2

theorem Recalls.mono {past past' : Reading → Prop} {c : Cache Key FileAnalysis}
    (h : Recalls past c) (hp : ∀ x, past x → past' x) : Recalls past' c := by
  intro e he
  obtain ⟨x, hx, hk, ha⟩ := h e he
  exact ⟨x, hp x hx, hk, ha⟩

theorem Recalls.store {past : Reading → Prop} {c : Cache Key FileAnalysis} (h : Recalls past c)
    {x : Reading} (hx : past x) {k : Key} {f : FileAnalysis} (hk : x.key = some k)
    (hf : x.analysis = some f) : Recalls past (c.store k f) := by
  intro e he
  rcases mem_store he with rfl | he
  · exact ⟨x, hx, hk, hf⟩
  · exact h e he

theorem recalls_empty (past : Reading → Prop) (size : Int) : Recalls past (Cache.empty size) := by
  intro e he
  exact absurd he List.not_mem_nil

namespace Analyzer

/-- What an analyzer remembers for the key of a reading. -/
def known (a : Analyzer) (x : Reading) : Option FileAnalysis :=
  (a.slot x.host x.selection x.file).known

/-- What an analyzer tells about the file of a reading. -/
def tells (a : Analyzer) (x : Reading) : Option FileAnalysis :=
  outcome x.host x.selection (a.slot x.host x.selection x.file)

/-- A cache after a reading that was looked up in an analyzer. -/
def keeps (a : Analyzer) (c : Cache Key FileAnalysis) (x : Reading) : Cache Key FileAnalysis :=
  remember c (a.slot x.host x.selection x.file) (a.tells x)

theorem slot_key {a : Analyzer} {x : Reading} {k : Key}
    (h : (a.slot x.host x.selection x.file).key = some k) : x.key = some k := by
  simp only [slot] at h
  split_ifs at h
  exact h

theorem known_eq_of_key {a : Analyzer} {x y : Reading} (h : x.key = y.key) :
    a.known x = a.known y := by
  unfold Reading.key at h
  rw [known, known, slot, slot, h]

theorem mem_of_known {a : Analyzer} {x : Reading} {f : FileAnalysis} (h : a.known x = some f) :
    ∃ k, x.key = some k ∧ (k, f) ∈ a.cache.entries := by
  obtain ⟨k, hk, hget⟩ := Option.bind_eq_some_iff.mp h
  exact ⟨k, slot_key hk, Table.mem_of_get? hget⟩

theorem tells_of_known {a : Analyzer} {x : Reading} {f : FileAnalysis} (h : a.known x = some f) :
    a.tells x = some f := by
  rw [known] at h
  rw [tells, outcome, h]

theorem tells_of_unknown {a : Analyzer} {x : Reading} (h : a.known x = none) :
    a.tells x = x.analysis := by
  rw [known] at h
  rw [tells, outcome, h]
  rfl

theorem tells_of_disabled {a : Analyzer} (h : a.config.cacheEnabled = false) (x : Reading) :
    a.tells x = x.analysis := by
  simp only [tells, slot, h, outcome]
  rfl

theorem recalls_keeps {past : Reading → Prop} (a : Analyzer) {c : Cache Key FileAnalysis}
    (h : Recalls past c) {x : Reading} (hx : past x) : Recalls past (a.keeps c x) := by
  unfold keeps remember
  split
  · -- Only what was not known is kept, and that is what the file says.
    rename_i key f hknown hkey hf
    exact h.store hx (slot_key hkey) ((tells_of_unknown hknown).symm.trans hf)
  · exact h

theorem recalls_foldl_keeps {past : Reading → Prop} (a : Analyzer) {c : Cache Key FileAnalysis}
    (h : Recalls past c) {xs : List Reading} (hxs : ∀ x ∈ xs, past x) :
    Recalls past (xs.foldl a.keeps c) := by
  induction xs generalizing c with
  | nil => exact h
  | cons x xs ih =>
    exact ih (a.recalls_keeps h (hxs x List.mem_cons_self))
      (fun y hy => hxs y (List.mem_cons_of_mem _ hy))

/-! ### Requests -/

/-- The files that a request looks at. -/
def readings (a : Analyzer) (h : Host) (q : Request) : List Reading :=
  match plan q with
  | .error _ => []
  | .ok p =>
    match h.sourceFiles (a.scope p.reach) p.reach.path with
    | .error _ => []
    | .ok files => files.map (fun file => ⟨h, p.selection, file⟩)

/-- What a request comes to, given what is told about each file. -/
def concluded (a : Analyzer) (h : Host) (q : Request)
    (told : Reading → Option FileAnalysis) : Except Fault Answer :=
  match plan q with
  | .error f => .error f
  | .ok p =>
    match h.sourceFiles (a.scope p.reach) p.reach.path with
    | .error f => .error (.ofSearch p.reach.path f)
    | .ok files => p.conclude (collect (files.map (fun file => told ⟨h, p.selection, file⟩)))

/-- A request is answered by what is told about its readings, which are then kept. -/
theorem ask_eq (a : Analyzer) (h : Host) (q : Request) :
    a.ask h q = (a.concluded h q a.tells,
      { a with cache := (a.readings h q).foldl a.keeps a.cache }) := by
  unfold ask answer concluded readings
  cases hp : plan q with
  | error f => exact run_bind_of_error (run_lift _ a)
  | ok p =>
    refine (run_bind_of_ok (run_lift _ a)).trans ?_
    dsimp only
    cases hf : h.sourceFiles (a.scope p.reach) p.reach.path with
    | error f => exact run_bind_of_error (scan_of_error hf _)
    | ok files =>
      refine (run_bind_of_ok (scan_of_ok hf _)).trans ?_
      rw [run_lift, List.foldl_map]
      rfl

theorem ask_of_files {a : Analyzer} {h : Host} {q : Request} {p : Plan} {files : List String}
    (hp : plan q = .ok p) (hs : h.sourceFiles (a.scope p.reach) p.reach.path = .ok files) :
    (a.ask h q).1 =
      p.conclude (collect (files.map (fun file => a.tells ⟨h, p.selection, file⟩))) := by
  rw [ask_eq, concluded, hp]
  dsimp only
  rw [hs]

theorem ask_of_unreached {a : Analyzer} {h : Host} {q : Request} {p : Plan}
    {f : FileSystem.SearchFault} (hp : plan q = .ok p)
    (hs : h.sourceFiles (a.scope p.reach) p.reach.path = .error f) :
    (a.ask h q).1 = .error (.ofSearch p.reach.path f) := by
  rw [ask_eq, concluded, hp]
  dsimp only
  rw [hs]

/-- What a query comes down to. It has an answer, unless a prop is to be compared with a whole number that
is too long. -/
theorem plan_query {component criteria logic : Json} {question : Query.Question}
    (hq : Query.validate component criteria logic = .ok question) (reach : Reach) (y : Report.Style) :
    ∃ p, plan (.query reach component criteria logic y) = .ok p ∧ p.reach = reach ∧
      p.selection = { component := some question.component } ∧ ∀ r : Findings,
        (Query.Stuck (Query.instances r.components r.sites question.component) question.criteria →
          p.conclude r = .error .digits) ∧
        (¬ Query.Stuck (Query.instances r.components r.sites question.component) question.criteria →
          p.conclude r = .ok (.query question y.places (Query.run r.components r.sites
            question.component question.criteria question.logic y.columns) r.files.length)) := by
  rw [plan, hq]
  refine ⟨_, rfl, rfl, rfl, ?_⟩
  intro r
  constructor
  · intro hstuck
    dsimp only
    rw [Query.search_of_stuck hstuck]
  · intro hfree
    dsimp only
    rw [Query.search_of_not_stuck hfree]

/-- A request fails whatever is told, or it is answered by what is told about files that are read on
one host for one selection. -/
theorem request_cases (a : Analyzer) (h : Host) (q : Request) :
    (a.readings h q = [] ∧ ∃ f, ∀ told, a.concluded h q told = .error f) ∨
    ∃ p, plan q = .ok p ∧ (∀ x ∈ a.readings h q, x.host = h ∧ x.selection = p.selection) ∧
      ∀ told, a.concluded h q told = p.conclude (collect ((a.readings h q).map told)) := by
  unfold readings concluded
  cases hp : plan q with
  | error f => exact Or.inl ⟨rfl, f, fun _ => rfl⟩
  | ok p =>
    dsimp only
    cases hf : h.sourceFiles (a.scope p.reach) p.reach.path with
    | error f => exact Or.inl ⟨rfl, _, fun _ => rfl⟩
    | ok files =>
      refine Or.inr ⟨p, rfl, ?_, ?_⟩
      · intro x hx
        obtain ⟨file, _, rfl⟩ := List.mem_map.mp hx
        exact ⟨rfl, rfl⟩
      · intro told
        dsimp only
        rw [List.map_map]
        rfl

theorem host_of_mem_readings {a : Analyzer} {h : Host} {q : Request} {x : Reading}
    (hx : x ∈ a.readings h q) : x.host = h := by
  rcases a.request_cases h q with ⟨hnil, _⟩ | ⟨_, _, hall, _⟩
  · rw [hnil] at hx
    exact absurd hx List.not_mem_nil
  · exact (hall x hx).1

theorem concluded_congr {a : Analyzer} {h : Host} {q : Request}
    {told told' : Reading → Option FileAnalysis} (ht : ∀ x ∈ a.readings h q, told x = told' x) :
    a.concluded h q told = a.concluded h q told' := by
  rcases a.request_cases h q with ⟨_, f, hf⟩ | ⟨p, _, _, hp⟩
  · rw [hf, hf]
  · rw [hp, hp, List.map_congr_left ht]

theorem concluded_of_scope {a b : Analyzer} (hs : a.scope = b.scope) (h : Host) (q : Request) :
    a.concluded h q = b.concluded h q := by
  unfold concluded
  rw [hs]

theorem readings_of_config {a b : Analyzer} (hc : a.config = b.config) (h : Host) (q : Request) :
    a.readings h q = b.readings h q := by
  have hs : a.scope = b.scope := by
    funext r
    rw [scope, scope, hc]
  unfold readings
  rw [hs]

/-- What an analyzer tells about the files of a request is what they say by themselves. -/
def Truthful (a : Analyzer) (h : Host) (q : Request) : Prop :=
  ∀ x ∈ a.readings h q, a.tells x = x.analysis

theorem truthful_of_disabled {a : Analyzer} (hoff : a.config.cacheEnabled = false) (h : Host)
    (q : Request) : a.Truthful h q := fun x _ => tells_of_disabled hoff x

theorem ask_of_truthful {a : Analyzer} {h : Host} {q : Request} (ht : a.Truthful h q) :
    (a.ask h q).1 = a.concluded h q Reading.analysis := by
  rw [ask_eq]
  exact concluded_congr ht

/-- Without a cache, a request is answered by what the files say by themselves. -/
theorem ask_of_disabled {a u : Analyzer} (hu : u.config = { a.config with cacheEnabled := false })
    (h : Host) (q : Request) : (u.ask h q).1 = a.concluded h q Reading.analysis := by
  have hs : u.scope = a.scope := by
    funext r
    rw [scope, scope, hu]
  have ht : u.Truthful h q := truthful_of_disabled (by rw [hu]) h q
  rw [ask_of_truthful ht, concluded_of_scope hs]

theorem config_ask (a : Analyzer) (h : Host) (q : Request) : (a.ask h q).2.config = a.config := by
  rw [ask_eq]

theorem recalls_ask {past : Reading → Prop} {a : Analyzer} {h : Host} {q : Request}
    (hr : Recalls past a.cache) (hq : ∀ x ∈ a.readings h q, past x) :
    Recalls past (a.ask h q).2.cache := by
  rw [ask_eq]
  exact a.recalls_foldl_keeps hr hq

end Analyzer

end PropAtlas.Session
