import PropAtlas.FileSystem.Discovery
import PropAtlas.Proofs.Path
import Mathlib.Data.String.Basic

/-! The order in which source files are found: by their paths, whatever the order of the entries in a
directory is. -/

namespace PropAtlas

/-- A text is continued by looking at its last character, which can be evaluated. -/
theorem FileSystem.extendAll_eq : extendAll = fun text names => names.foldl (fun text name =>
    if text.isEmpty || text.toList.getLast? == some '/' then text ++ name
    else text ++ "/" ++ name) text := by
  funext text names
  unfold extendAll Path.extend
  simp only [Path.endsWith_slash]

namespace Host
open FileSystem

variable {h : Host} {o : Scope} {root : String} {es : List (String × Entry)} {files : List String}

theorem mergeSort_sorted (files : List String) :
    (files.mergeSort (fun a b => decide (a ≤ b))).Pairwise (· ≤ ·) := by
  have hsorted : (files.mergeSort (fun a b => decide (a ≤ b))).Pairwise
      (fun a b => decide (a ≤ b) = true) := by
    apply List.pairwise_mergeSort
    · intro a b c hab hbc
      rw [decide_eq_true_eq] at *
      exact le_trans hab hbc
    · intro a b
      rw [Bool.or_eq_true, decide_eq_true_eq, decide_eq_true_eq]
      exact le_total a b
  exact hsorted.imp of_decide_eq_true

theorem filesBelow_free (hfree : o.bounded = false) :
    h.filesBelow o root es =
      .ok ((h.foundBelow o root es).mergeSort (fun a b => decide (a ≤ b))) := by
  rw [filesBelow]
  simp [hfree]

/-- A search inside a project has found the project and keeps what is in it. -/
theorem filesBelow_bounded_iff (hbounded : o.bounded = true) :
    h.filesBelow o root es = .ok files ↔ ∃ roots, h.projectRoots root = .ok roots ∧
      files = ((h.foundBelow o root es).filter (fun file => h.isInProject file roots root)).mergeSort
        (fun a b => decide (a ≤ b)) := by
  rw [filesBelow]
  simp only [hbounded, if_true]
  cases h.projectRoots root with
  | error f => exact ⟨nofun, nofun⟩
  | ok roots =>
    constructor
    · intro hfiles
      exact ⟨roots, rfl, (Except.ok.inj hfiles).symm⟩
    · rintro ⟨roots', hroots, rfl⟩
      cases hroots
      rfl

theorem filesBelow_sorted (hfiles : h.filesBelow o root es = .ok files) :
    files.Pairwise (· ≤ ·) := by
  cases hb : o.bounded with
  | false =>
    rw [filesBelow_free hb] at hfiles
    cases hfiles
    exact mergeSort_sorted _
  | true =>
    obtain ⟨roots, _, rfl⟩ := (filesBelow_bounded_iff hb).mp hfiles
    exact mergeSort_sorted _

theorem sourceFiles_sorted (hs : h.sourceFiles o root = .ok files) : files.Pairwise (· ≤ ·) := by
  unfold sourceFiles at hs
  split at hs
  · cases hs
    exact List.Pairwise.nil
  · cases hs
  · cases hs
    split_ifs
    · exact List.pairwise_singleton _ _
    · exact List.Pairwise.nil
  · exact filesBelow_sorted hs
  · cases hs
    exact List.Pairwise.nil

/-- Files that are found in order stay in it. Sorting is by recursion on the length and is not
evaluated. -/
theorem sourceFiles_of_found {names : List (List String)}
    (hstat : h.stat root = .ok (.directory es))
    (hfree : o.bounded = false) (hleaves : leaves o 1 es = names)
    (hfound : ((names.filter (fun ns => o.wants (ns.getLast?.getD ""))).map (extendAll root)).filter
      h.isFile = files) (hsorted : files.Pairwise (· ≤ ·)) : h.sourceFiles o root = .ok files := by
  have hsort : files.mergeSort (fun a b => decide (a ≤ b)) = files := by
    apply List.mergeSort_of_pairwise
    exact hsorted.imp decide_eq_true
  have hall : h.foundBelow o root es = files := by
    rw [foundBelow, hleaves, hfound]
  rw [sourceFiles, hstat]
  dsimp only
  rw [filesBelow_free hfree, hall, hsort]

end Host

end PropAtlas
