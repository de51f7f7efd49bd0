import PropAtlas.Config
import PropAtlas.Proofs.FileSystem.Below

/-! Outlines. The outline of a file system has its directories, links, sizes and times, but none of
the bytes. Looking paths up, making them real, finding source files and checking path arguments come
out the same on an outline: they never look into a file. They would come out the same with any other
bytes, sizes and times in the files, and that is how it is shown. -/

namespace PropAtlas
namespace FileSystem.Entry

mutual

/-- An entry with every byte of its files blotted out. -/
def outline : Entry → Entry
  | .file content modified => .file (content.map (fun _ => 0)) modified
  | .directory es => .directory (outlineOf es)
  | .link target => .link target
  | .device => .device

def outlineOf : List (String × Entry) → List (String × Entry)
  | [] => []
  | (n, e) :: es => (n, outline e) :: outlineOf es

end

mutual

/-- An entry with other bytes and times in its files. -/
def recast (g : List UInt8 → Int → List UInt8 × Int) : Entry → Entry
  | .file content modified => .file (g content modified).1 (g content modified).2
  | .directory es => .directory (recastOf g es)
  | .link target => .link target
  | .device => .device

def recastOf (g : List UInt8 → Int → List UInt8 × Int) :
    List (String × Entry) → List (String × Entry)
  | [] => []
  | (n, e) :: es => (n, recast g e) :: recastOf g es

end

/-- Bytes of the same number that say nothing. -/
def blot (content : List UInt8) (modified : Int) : List UInt8 × Int :=
  (content.map (fun _ => 0), modified)

mutual

theorem outline_eq_recast (e : Entry) : e.outline = e.recast blot := by
  cases e with
  | directory es => exact congrArg Entry.directory (outlineOf_eq_recastOf es)
  | file content modified => rfl
  | link target => rfl
  | device => rfl

theorem outlineOf_eq_recastOf (es : List (String × Entry)) : outlineOf es = recastOf blot es := by
  cases es with
  | nil => rfl
  | cons ne es =>
    obtain ⟨n, e⟩ := ne
    rw [outlineOf, recastOf, outline_eq_recast e, outlineOf_eq_recastOf es]

end

variable (g : List UInt8 → Int → List UInt8 × Int)

theorem get?_recastOf (es : List (String × Entry)) (n : String) :
    Table.get? (recastOf g es) n = (Table.get? es n).map (recast g) := by
  induction es with
  | nil => rfl
  | cons me es ih =>
    obtain ⟨m, e⟩ := me
    simp only [recastOf, Table.get?] at ih ⊢
    by_cases hm : m = n
    · simp [hm]
    · simpa [hm] using ih

theorem listing_recast (e : Entry) : (e.recast g).listing = recastOf g e.listing := by
  cases e <;> rfl

@[simp]
theorem get?_recast (e : Entry) (place : List String) :
    (e.recast g).get? place = (e.get? place).map (recast g) := by
  induction place generalizing e with
  | nil => rfl
  | cons n place ih =>
    rw [get?, get?, listing_recast, get?_recastOf]
    cases Table.get? e.listing n with
    | none => rfl
    | some c => exact ih c

mutual

@[simp]
theorem links_recast (e : Entry) : (e.recast g).links = e.links := by
  cases e with
  | directory es => exact linksOf_recastOf es
  | file content modified => rfl
  | link target => rfl
  | device => rfl

theorem linksOf_recastOf (es : List (String × Entry)) : linksOf (recastOf g es) = linksOf es := by
  cases es with
  | nil => rfl
  | cons ne es =>
    obtain ⟨n, e⟩ := ne
    rw [recastOf, linksOf, linksOf, links_recast e, linksOf_recastOf es]

end

end FileSystem.Entry

namespace FileSystem

variable (g : List UInt8 → Int → List UInt8 × Int)

@[simp]
theorem advance_recast (root : Entry) (here names : List String) :
    advance (root.recast g) here names = advance root here names := by
  induction names generalizing here with
  | nil => rfl
  | cons n names ih =>
    rw [advance, advance, Entry.get?_recast]
    cases root.get? here with
    | none => rfl
    | some e =>
      cases e with
      | directory es =>
        simp only [Option.map_some, Entry.recast, Entry.get?_recastOf, ih]
        cases Table.get? es n with
        | none => rfl
        | some c => cases c <;> rfl
      | file content modified => rfl
      | link target => rfl
      | device => rfl

@[simp]
theorem locate_recast (root : Entry) (k : Nat) (here names : List String) :
    locate (root.recast g) k here names = locate root k here names := by
  induction k generalizing here names with
  | zero => rw [locate, locate, advance_recast]
  | succ k ih =>
    rw [locate, locate, advance_recast]
    simp only [ih]

theorem realStep_recast (root : Entry) :
    realStep (root.recast g) = realStep root := by
  funext follow here name
  rw [realStep, realStep, Entry.get?_recast]
  cases root.get? (here ++ [name]) with
  | none => rfl
  | some e => cases e <;> rfl

@[simp]
theorem real_recast (root : Entry) (d : Nat) : real (root.recast g) d = real root d := by
  induction d with
  | zero =>
    funext here names
    rw [real, real, realStep_recast]
  | succ d ih =>
    funext here names
    rw [real, real, realStep_recast, ih]

theorem leaves_recast (o : Scope) (level : Nat) (es : List (String × Entry)) :
    leaves o level (Entry.recastOf g es) = leaves o level es := by
  fun_induction leaves o level es with
  | case1 level => rw [Entry.recastOf, leaves]
  | case2 level n ds rest ih₁ ih₂ =>
    rw [Entry.recastOf, Entry.recast, leaves]
    simp_all
  | case3 level n e rest hdir ih =>
    have hout (ds : List (String × Entry)) (he : e.recast g = .directory ds) : False := by
      cases e with
      | directory es => exact hdir es rfl
      | file content modified => cases he
      | link target => cases he
      | device => cases he
    rw [Entry.recastOf, leaves, ih]
    exact hout

end FileSystem

namespace Host
open FileSystem

/-- A host with the outline of its file system. -/
def outline (h : Host) : Host := { h with root := h.root.outline }

/-- A host with other bytes and times in its files. -/
def recast (g : List UInt8 → Int → List UInt8 × Int) (h : Host) : Host :=
  { h with root := h.root.recast g }

variable (g : List UInt8 → Int → List UInt8 × Int) (h : Host)

theorem outline_eq_recast : h.outline = h.recast Entry.blot := by
  rw [outline, recast, Entry.outline_eq_recast]

@[simp]
theorem locate_recast (path : String) : (h.recast g).locate path = h.locate path := by
  simp only [locate, recast, start, FileSystem.locate_recast]

@[simp]
theorem stat_recast (path : String) : (h.recast g).stat path = (h.stat path).map (Entry.recast g) := by
  simp only [stat, locate_recast]
  cases h.locate path with
  | error f => rfl
  | ok place =>
    simp only [bind, Except.bind, recast, Entry.get?_recast]
    cases h.root.get? place <;> rfl

@[simp]
theorem exists?_recast (path : String) : (h.recast g).exists? path = h.exists? path := by
  rw [exists?, exists?, stat_recast]
  cases h.stat path with
  | error f => cases f <;> rfl
  | ok e => rfl

@[simp]
theorem resolve_recast (p : Path) : (h.recast g).resolve p = h.resolve p := by
  simp only [resolve, recast, real_recast, Entry.links_recast]

@[simp]
theorem expandHome_recast (p : Path) : (h.recast g).expandHome p = h.expandHome p := rfl

@[simp]
theorem isFile_recast (path : String) : (h.recast g).isFile path = h.isFile path := by
  rw [isFile, isFile, stat_recast]
  cases h.stat path with
  | error f => rfl
  | ok e => cases e <;> rfl

theorem hasMarker_recast (place markers : List String) :
    (h.recast g).hasMarker place markers = h.hasMarker place markers := by
  induction markers with
  | nil => rfl
  | cons m markers ih =>
    rw [hasMarker, hasMarker, exists?_recast, ih]

theorem markedPlaces_recast (places : List (List String)) :
    (h.recast g).markedPlaces places = h.markedPlaces places := by
  induction places with
  | nil => rfl
  | cons place places ih => rw [markedPlaces, markedPlaces, hasMarker_recast, ih]

@[simp]
theorem filesBelow_recast (o : Scope) (root : String) (es : List (String × Entry)) :
    (h.recast g).filesBelow o root (Entry.recastOf g es) = h.filesBelow o root es := by
  have hfile : (h.recast g).isFile = h.isFile := funext (h.isFile_recast g)
  simp only [filesBelow, foundBelow, leaves_recast, hfile, projectRoots, markedPlaces_recast,
    isInProject, resolve_recast]

@[simp]
theorem sourceFiles_recast (o : Scope) (root : String) :
    (h.recast g).sourceFiles o root = h.sourceFiles o root := by
  rw [sourceFiles, sourceFiles, stat_recast]
  cases h.stat root with
  | error f => cases f <;> rfl
  | ok e =>
    cases e with
    | directory es => exact h.filesBelow_recast g o root es
    | file content modified => rfl
    | link target => rfl
    | device => rfl

@[simp]
theorem locate_outline (path : String) : h.outline.locate path = h.locate path := by
  rw [outline_eq_recast, locate_recast]

@[simp]
theorem sourceFiles_outline (o : Scope) (root : String) :
    h.outline.sourceFiles o root = h.sourceFiles o root := by
  rw [outline_eq_recast, sourceFiles_recast]

end Host

namespace Config

variable (g : List UInt8 → Int → List UInt8 × Int)

@[simp]
theorem resolve_recast (c : Config) (h : Host) (path : String) :
    c.resolve (h.recast g) path = c.resolve h path := by
  simp only [resolve, Host.expandHome_recast, Host.resolve_recast]

@[simp]
theorem allows_recast (c : Config) (h : Host) (p : Path) : c.allows (h.recast g) p = c.allows h p := by
  simp only [allows, Host.resolve_recast]

@[simp]
theorem checkPath_recast (c : Config) (h : Host) (argument : String) (path : Option String) :
    c.checkPath (h.recast g) argument path = c.checkPath h argument path := by
  cases path with
  | none => rfl
  | some p => simp only [checkPath, resolve_recast, allows_recast, Host.exists?_recast]

@[simp]
theorem checkPath_outline (c : Config) (h : Host) (argument : String) (path : Option String) :
    c.checkPath h.outline argument path = c.checkPath h argument path := by
  rw [Host.outline_eq_recast, checkPath_recast]

end Config

end PropAtlas
