import PropAtlas.Proofs.Value.Invariance
import PropAtlas.Proofs.Text.Utf8
import Mathlib.Order.Monotone.Defs

/-!
Templates in pieces. The substitutions of a template and the gaps around them cover what is between its
backticks, each byte once, whatever else is between the substitutions.

Main statement: the text of a template is the cooked gaps and the texts of the substitutions in turn, and
there is none only if one of the substitutions has none.
-/

namespace PropAtlas

open PropAtlas.Syntax (Node Kind Span)

/-! ### Stretches of a source -/

/-- Spans that follow one another from one offset to another and leave nothing out. -/
inductive Tiles : Nat → List Span → Nat → Prop where
  | nil (a : Nat) : Tiles a [] a
  | cons {p : Span} {ps : List Span} {b : Nat} (hp : p.start ≤ p.stop) (h : Tiles p.stop ps b) :
      Tiles p.start (p :: ps) b

namespace Source

/-- The file that a source was decoded from. -/
def bytes (s : Source) : List UInt8 := Utf8.encode s.chars.toList

/-- How many bytes stand in front of an offset. -/
def byteOffset (s : Source) (i : Nat) : Nat := (Utf8.encode (s.slice 0 i)).length

/-- The bytes of a span. -/
def bytesIn (s : Source) (p : Span) : List UInt8 :=
  (s.bytes.take (s.byteOffset p.stop)).drop (s.byteOffset p.start)

/-- Whether the byte at an index of the file is one of those of a span. -/
def isByteIn (s : Source) (x : Nat) (p : Span) : Bool :=
  decide (s.byteOffset p.start ≤ x ∧ x < s.byteOffset p.stop)

variable (s : Source) {a b c : Nat}

theorem slice_append (hab : a ≤ b) (hbc : b ≤ c) : s.slice a b ++ s.slice b c = s.slice a c := by
  rw [slice, slice, slice, ← Array.toList_append, Array.extract_append_extract,
    Nat.min_eq_left hab, Nat.max_eq_right hbc]

theorem encode_slice_append (hab : a ≤ b) (hbc : b ≤ c) :
    Utf8.encode (s.slice a b) ++ Utf8.encode (s.slice b c) = Utf8.encode (s.slice a c) := by
  rw [← s.slice_append hab hbc]
  exact List.flatMap_append.symm

theorem byteOffset_mono : Monotone s.byteOffset := by
  intro a b hab
  rw [byteOffset, byteOffset, ← s.encode_slice_append (Nat.zero_le a) hab, List.length_append]
  exact Nat.le_add_right _ _

/-- To cut the file by bytes is to cut the source by characters. -/
theorem bytesIn_eq {p : Span} (hp : p.start ≤ p.stop) :
    s.bytesIn p = Utf8.encode (s.slice p.start p.stop) := by
  have hfile : s.bytes = Utf8.encode (s.slice 0 p.stop) ++
      Utf8.encode (s.chars.toList.drop p.stop) := by
    rw [slice_zero, bytes]
    nth_rewrite 1 [← List.take_append_drop p.stop s.chars.toList]
    exact List.flatMap_append
  have htake : s.bytes.take (s.byteOffset p.stop) = Utf8.encode (s.slice 0 p.stop) := by
    rw [hfile, byteOffset]
    exact List.take_left
  rw [bytesIn, htake, ← s.encode_slice_append (Nat.zero_le _) hp, byteOffset]
  exact List.drop_left

end Source

namespace Tiles

variable {a b : Nat} {ps : List Span}

theorem le (h : Tiles a ps b) : a ≤ b := by
  induction h with
  | nil a => exact Nat.le_refl a
  | cons hp _ ih => exact Nat.le_trans hp ih

theorem start_le_stop (h : Tiles a ps b) : ∀ p ∈ ps, p.start ≤ p.stop := by
  induction h with
  | nil a => simp
  | cons hp _ ih => exact List.forall_mem_cons.mpr ⟨hp, ih⟩

/-- Spans without a break spell what is from their start to their end. -/
theorem flatten_slice (s : Source) (h : Tiles a ps b) :
    (ps.map (fun p => s.slice p.start p.stop)).flatten = s.slice a b := by
  induction h with
  | nil a => simp [Source.slice]
  | cons hp h ih => rw [List.map_cons, List.flatten_cons, ih, s.slice_append hp h.le]

theorem countP_isByteIn_before (s : Source) (h : Tiles a ps b) {x : Nat} (hx : x < s.byteOffset a) :
    ps.countP (s.isByteIn x) = 0 := by
  induction h with
  | nil a => rfl
  | @cons p ps b hp _ ih =>
    have hstop : x < s.byteOffset p.stop := lt_of_lt_of_le hx (s.byteOffset_mono hp)
    have hp : ¬ s.isByteIn x p = true := by
      rw [Source.isByteIn, decide_eq_true_eq]
      omega
    rw [List.countP_cons_of_neg hp, ih hstop]

/-- Each byte is in one of the spans and in no other. -/
theorem countP_isByteIn (s : Source) (h : Tiles a ps b) {x : Nat} (ha : s.byteOffset a ≤ x)
    (hb : x < s.byteOffset b) : ps.countP (s.isByteIn x) = 1 := by
  induction h with
  | nil a => omega
  | @cons p ps b hp h ih =>
    by_cases hx : x < s.byteOffset p.stop
    · have hin : s.isByteIn x p = true := decide_eq_true ⟨ha, hx⟩
      rw [List.countP_cons_of_pos hin, h.countP_isByteIn_before s hx]
    · have hout : ¬ s.isByteIn x p = true := by
        rw [Source.isByteIn, decide_eq_true_eq]
        omega
      rw [List.countP_cons_of_neg hout]
      exact ih (by omega) hb

end Tiles

namespace Value

/-! ### Gaps and substitutions in turn -/

/-- The members of two lists in turn, as long as both have some. -/
def alternate {α : Type} : List α → List α → List α
  | x :: xs, y :: ys => x :: y :: alternate xs ys
  | xs, [] => xs
  | [], ys => ys

theorem map_alternate {α β : Type} (f : α → β) (xs ys : List α) :
    (alternate xs ys).map f = alternate (xs.map f) (ys.map f) := by
  induction xs generalizing ys with
  | nil => cases ys <;> rfl
  | cons x xs ih =>
    cases ys with
    | nil => rfl
    | cons y ys => simp [alternate, ih]

/-- Where the gaps of a template are. -/
def gapSpans (stop start : Nat) : List Node → List Span
  | [] => [⟨start, max (stop - 1) start⟩]
  | c :: cs => ⟨start, c.span.start⟩ :: gapSpans stop c.span.stop cs

/-- The gaps of a template and its substitutions in turn. -/
def pieces (n : Node) : List Span :=
  alternate (gapSpans n.span.stop (n.span.start + 1) (substitutions n))
    ((substitutions n).map Node.span)

theorem gapsFrom_eq (s : Source) (stop start : Nat) (cs : List Node) :
    gapsFrom s stop start cs =
      (gapSpans stop start cs).map (fun p => s.slice p.start p.stop) := by
  induction cs generalizing start with
  | nil => rfl
  | cons c cs ih => rw [gapsFrom, gapSpans, ih, List.map_cons]

theorem length_gapsFrom (s : Source) (stop start : Nat) (cs : List Node) :
    (gapsFrom s stop start cs).length = cs.length + 1 := by
  induction cs generalizing start with
  | nil => rfl
  | cons c cs ih => rw [gapsFrom, List.length_cons, ih, List.length_cons]

/-- The slices of the pieces are the gaps and the substitutions as they are written. -/
theorem map_slice_pieces (s : Source) (n : Node) :
    (pieces n).map (fun p => s.slice p.start p.stop) =
      alternate (gaps s n) ((substitutions n).map (words s)) := by
  rw [pieces, map_alternate, ← gapsFrom_eq, List.map_map]
  rfl

theorem tiles_alternate {stop start : Nat} {cs : List Node} (hstart : start ≤ stop - 1)
    (hinside : ∀ c ∈ cs, start ≤ c.span.start ∧ c.span.start ≤ c.span.stop ∧ c.span.stop ≤ stop - 1)
    (hordered : cs.Pairwise (fun a b => a.span.stop ≤ b.span.start)) :
    Tiles start (alternate (gapSpans stop start cs) (cs.map Node.span)) (stop - 1) := by
  induction cs generalizing start with
  | nil =>
    rw [gapSpans, Nat.max_eq_left hstart]
    exact .cons (p := ⟨start, stop - 1⟩) hstart (.nil _)
  | cons c cs ih =>
    obtain ⟨hc, hcs⟩ := List.forall_mem_cons.mp hinside
    obtain ⟨hafter, hordered⟩ := List.pairwise_cons.mp hordered
    obtain ⟨hgap, hspan, hstop⟩ := hc
    -- The rest of the substitutions lie behind the first one.
    have hrest : Tiles c.span.stop
        (alternate (gapSpans stop c.span.stop cs) (cs.map Node.span)) (stop - 1) := by
      apply ih hstop _ hordered
      intro b hb
      exact ⟨hafter b hb, (hcs b hb).2⟩
    exact .cons (p := ⟨start, c.span.start⟩) hgap (.cons hspan hrest)

/-! ### Texts of templates -/

/-- The text of what comes first in a substitution. -/
def innerText (show? : Node → Option Text) (c : Node) : Option Text := c.children.head?.bind show?

variable {s : Source} {show? : Node → Option Text}

/-- A template has no text exactly if what comes first in one of its substitutions has none. -/
theorem templateText_eq_none_iff (start stop : Nat) (cs : List Node) :
    templateText s show? start stop cs = none ↔
      ∃ c ∈ cs.filter (fun c => c.kind == .substitution), innerText show? c = none := by
  induction cs generalizing start with
  | nil => simp [templateText]
  | cons c cs ih =>
    by_cases hc : c.kind = .substitution
    · rw [templateText_substitution hc, ← innerText, List.filter_cons_of_pos (by simpa using hc)]
      cases hshown : innerText show? c with
      | none => exact iff_of_true rfl ⟨c, List.mem_cons_self, hshown⟩
      | some t =>
        rw [Option.bind_some, Option.map_eq_none_iff, ih, List.exists_mem_cons_iff, hshown]
        simp
    · rw [templateText, if_neg hc, List.filter_cons_of_neg (by simpa using hc), ih]

/-- The text of a template: its cooked gaps and the texts of its substitutions in turn. -/
theorem templateText_eq_some (start stop : Nat) (cs : List Node) (shown : List Text)
    (h : (cs.filter (fun c => c.kind == .substitution)).map (innerText show?) = shown.map some) :
    templateText s show? start stop cs = some (alternate
      ((gapsFrom s stop start (cs.filter (fun c => c.kind == .substitution))).map
        (fun g => Escape.cook (Text.ofChars g))) shown).flatten := by
  induction cs generalizing start shown with
  | nil =>
    obtain rfl : shown = [] := by simpa using h.symm
    rw [templateText]
    simp [gapsFrom, alternate, sourceText]
  | cons c cs ih =>
    by_cases hc : c.kind = .substitution
    · rw [List.filter_cons_of_pos (by simpa using hc)] at h ⊢
      obtain ⟨t, ts, rfl, ht, hts⟩ := List.map_eq_cons_iff.mp h.symm
      rw [templateText_substitution hc, ← innerText, ← ht, ih _ ts hts.symm]
      simp [gapsFrom, alternate, sourceText]
    · rw [List.filter_cons_of_neg (by simpa using hc)] at h ⊢
      rw [templateText, if_neg hc, ih _ shown h]

/-- A literal between two backticks, with its substitutions in source order inside it. -/
structure IsTemplate (s : Source) (n : Node) : Prop where
  kind : n.kind = .template
  opening : s.slice n.span.start (n.span.start + 1) = ['\x60']
  closing : s.slice (n.span.stop - 1) n.span.stop = ['\x60']
  apart : n.span.start + 1 < n.span.stop
  inside : ∀ c ∈ substitutions n,
    n.span.start < c.span.start ∧ c.span.start ≤ c.span.stop ∧ c.span.stop < n.span.stop
  ordered : (substitutions n).Pairwise (fun a b => a.span.stop ≤ b.span.start)

instance (s : Source) (n : Node) : Decidable (IsTemplate s n) :=
  decidable_of_iff
    (n.kind = .template ∧ s.slice n.span.start (n.span.start + 1) = ['\x60'] ∧
      s.slice (n.span.stop - 1) n.span.stop = ['\x60'] ∧ n.span.start + 1 < n.span.stop ∧
      (∀ c ∈ substitutions n,
        n.span.start < c.span.start ∧ c.span.start ≤ c.span.stop ∧ c.span.stop < n.span.stop) ∧
      (substitutions n).Pairwise (fun a b => a.span.stop ≤ b.span.start))
    ⟨fun ⟨hkind, hopening, hclosing, hapart, hinside, hordered⟩ =>
      ⟨hkind, hopening, hclosing, hapart, hinside, hordered⟩,
    fun h => ⟨h.kind, h.opening, h.closing, h.apart, h.inside, h.ordered⟩⟩

theorem IsTemplate.tiles {n : Node} (h : IsTemplate s n) :
    Tiles (n.span.start + 1) (pieces n) (n.span.stop - 1) := by
  have hapart := h.apart
  apply tiles_alternate (by omega) _ h.ordered
  intro c hc
  obtain ⟨hstart, hspan, hstop⟩ := h.inside c hc
  exact ⟨hstart, hspan, by omega⟩

theorem IsTemplate.words_eq {n : Node} (h : IsTemplate s n) :
    words s n = '\x60' :: (alternate (gaps s n) ((substitutions n).map (words s))).flatten ++
      ['\x60'] := by
  have hapart := h.apart
  have hbody := h.tiles.flatten_slice s
  rw [map_slice_pieces] at hbody
  calc words s n
      = s.slice n.span.start (n.span.start + 1) ++ s.slice (n.span.start + 1) n.span.stop :=
        (s.slice_append (by omega) (by omega)).symm
    _ = s.slice n.span.start (n.span.start + 1) ++
          (s.slice (n.span.start + 1) (n.span.stop - 1) ++ s.slice (n.span.stop - 1) n.span.stop) := by
        rw [s.slice_append (b := n.span.stop - 1) (by omega) (by omega)]
    _ = _ := by
        rw [h.opening, h.closing, hbody]
        rfl

/-- A template has no text exactly if one of its substitutions has none, and otherwise the cooked gaps
and the texts of the substitutions in turn. The gaps and the substitutions in turn are all that is
between the backticks: each byte there is in one of them and in no other, and the bytes of each are
those of its characters and decode to them. -/
theorem render_template_tiled (s : Source) (d : Nat) {n : Node} (h : IsTemplate s n) :
    (render s (d + 1) n = none ↔
      ∃ c ∈ substitutions n, innerText (render s d) c = none) ∧
    (∀ shown : List Text,
      (substitutions n).map (innerText (render s d)) = shown.map some →
      render s (d + 1) n = some (alternate
        ((gaps s n).map (fun g => Escape.cook (Text.ofChars g))) shown).flatten) ∧
    (gaps s n).length = (substitutions n).length + 1 ∧
    words s n = '\x60' :: (alternate (gaps s n) ((substitutions n).map (words s))).flatten ++
      ['\x60'] ∧
    (pieces n).map (fun p => s.slice p.start p.stop) =
      alternate (gaps s n) ((substitutions n).map (words s)) ∧
    (∀ p ∈ pieces n, s.bytesIn p = Utf8.encode (s.slice p.start p.stop) ∧
      Utf8.decode (s.bytesIn p) = .ok (s.slice p.start p.stop)) ∧
    ∀ x, s.byteOffset (n.span.start + 1) ≤ x → x < s.byteOffset (n.span.stop - 1) →
      (pieces n).countP (s.isByteIn x) = 1 := by
  rw [render_template h.kind]
  refine ⟨templateText_eq_none_iff _ _ _, templateText_eq_some _ _ _, length_gapsFrom _ _ _ _,
    h.words_eq, map_slice_pieces s n, ?_, ?_⟩
  · intro p hp
    have hbytes := s.bytesIn_eq (h.tiles.start_le_stop p hp)
    exact ⟨hbytes, hbytes ▸ Utf8.decode_encode _⟩
  · intro x hstart hstop
    exact h.tiles.countP_isByteIn s hstart hstop

/-- A template with characters of two and four bytes, two substitutions side by side, the second one a
template of its own, and an escape behind them. -/
def foldedSource : Source :=
  Source.ofList "<A b=\x7b\x60é$\x7bx\x7d$\x7b\x60😀$\x7by.z\x7d\x60\x7d\\t\x60\x7d/>".toList

theorem render_template_tiled_folded :
    ∃ root n, Syntax.parse .tsx foldedSource = some root ∧ n ∈ root.preorder ∧
      IsTemplate foldedSource n ∧ gaps foldedSource n = ["é".toList, [], "\\t".toList] ∧
      render foldedSource nestingLimit n = some (Text.ofString "éx😀y.z\t") := by
  have hparse : (Syntax.parse .tsx foldedSource).any (fun root => root.preorder.any (fun n =>
      decide (IsTemplate foldedSource n ∧ gaps foldedSource n = ["é".toList, [], "\\t".toList] ∧
        (substitutions n).map (innerText (render foldedSource 489)) =
          [Text.ofString "x", Text.ofString "😀y.z"].map some))) = true := by
    decide +kernel
  have hcook : (alternate (["é".toList, [], "\\t".toList].map
      (fun g => Escape.cook (Text.ofChars g))) [Text.ofString "x", Text.ofString "😀y.z"]).flatten =
      Text.ofString "éx😀y.z\t" := by
    decide +kernel
  obtain ⟨root, hroot, h⟩ := (Option.any_eq_true _ _).mp hparse
  obtain ⟨n, hn, h⟩ := List.any_eq_true.mp h
  obtain ⟨htemplate, hgaps, hshown⟩ := of_decide_eq_true h
  have hrender := (render_template_tiled foldedSource 489 htemplate).2.1 _ hshown
  rw [hgaps, hcook] at hrender
  exact ⟨root, n, hroot, hn, htemplate, hgaps, hrender⟩

end Value

end PropAtlas
