import PropAtlas.SourceFile
import PropAtlas.Proofs.Text.Malformed

/-! Which files are refused before the grammar is asked, and what the grammar is asked about. -/

namespace PropAtlas.SourceFile

variable {file : String} {bytes : List UInt8} {cs : List Char}

theorem reason_eq_binary_iff {f : Fault} : f.reason = "binary content" ↔ f = .binary := by
  cases f with
  | binary => exact ⟨fun _ => rfl, fun _ => rfl⟩
  | encoding e => cases e <;> decide
  | grammar => decide

theorem reason_encoding_iff {f : Fault} :
    "not valid UTF-8".toList <+: f.reason.toList ↔ ∃ e, f = .encoding e := by
  cases f with
  | binary => exact ⟨fun h => absurd h (by decide), nofun⟩
  | encoding e =>
    refine ⟨fun _ => ⟨e, rfl⟩, fun _ => ?_⟩
    cases e <;> decide
  | grammar => exact ⟨fun h => absurd h (by decide), nofun⟩

theorem read_of_mem (h : 0 ∈ bytes) : read file bytes = .error .binary := by
  rw [read, if_pos (List.contains_iff_mem.mpr h)]

theorem read_of_error {e : Utf8.Fault} (h : 0 ∉ bytes) (hdecode : Utf8.decode bytes = .error e) :
    read file bytes = .error (.encoding e) := by
  rw [read, if_neg (fun hmem => h (List.contains_iff_mem.mp hmem)), hdecode]

/-- A file that is decoded is read as the grammar says. -/
theorem read_of_ok (h : 0 ∉ bytes) (hdecode : Utf8.decode bytes = .ok cs) :
    read file bytes = (Syntax.parse (dialectOf file) (Source.ofList cs)).elim (.error .grammar)
      (fun root => .ok ⟨file, Source.ofList cs, root⟩) := by
  rw [read, if_neg (fun hmem => h (List.contains_iff_mem.mp hmem)), hdecode]
  dsimp only
  cases Syntax.parse (dialectOf file) (Source.ofList cs) <;> rfl

theorem eq_grammar_of_read {f : Fault} (h : 0 ∉ bytes) (hdecode : Utf8.decode bytes = .ok cs)
    (hread : read file bytes = .error f) : f = .grammar := by
  rw [read_of_ok h hdecode] at hread
  cases hparse : Syntax.parse (dialectOf file) (Source.ofList cs) with
  | none =>
    rw [hparse] at hread
    cases hread
    rfl
  | some root =>
    rw [hparse] at hread
    cases hread

/-- A file is refused as binary if and only if it holds a zero byte. Without one, it is refused as invalid
if and only if it is not the encoding of a text, which is so exactly if something malformed comes after
the encoding of some text. Otherwise the file is decoded to the text that it is the encoding of, and the
grammar alone decides. -/
theorem read_decides (file : String) (bytes : List UInt8) :
    ((∃ f, read file bytes = .error f ∧ f.reason = "binary content") ↔ 0 ∈ bytes) ∧
    (0 ∉ bytes →
      ((∃ f, read file bytes = .error f ∧ "not valid UTF-8".toList <+: f.reason.toList) ↔
        ¬ bytes.toByteArray.IsValidUTF8) ∧
      (¬ bytes.toByteArray.IsValidUTF8 ↔
        ∃ cs rest, bytes = Utf8.encode cs ++ rest ∧ Utf8.Malformed rest) ∧
      (bytes.toByteArray.IsValidUTF8 → ∃ cs, Utf8.decode bytes = .ok cs ∧
        cs.utf8Encode = bytes.toByteArray ∧
        read file bytes = (Syntax.parse (dialectOf file) (Source.ofList cs)).elim (.error .grammar)
          (fun root => .ok ⟨file, Source.ofList cs, root⟩))) := by
  simp only [reason_eq_binary_iff, reason_encoding_iff]
  refine ⟨⟨?_, fun h => ⟨_, read_of_mem h, rfl⟩⟩, fun hzero => ⟨⟨?_, ?_⟩, ?_, ?_⟩⟩
  · rintro ⟨_, hread, rfl⟩
    by_contra hzero
    cases hdecode : Utf8.decode bytes with
    | error e =>
      rw [read_of_error hzero hdecode] at hread
      cases hread
    | ok cs => cases eq_grammar_of_read hzero hdecode hread
  · rintro ⟨_, hread, e, rfl⟩ hvalid
    obtain ⟨cs, hdecode⟩ := Utf8.isValidUTF8_iff.mp hvalid
    cases eq_grammar_of_read hzero hdecode hread
  · intro hinvalid
    cases hdecode : Utf8.decode bytes with
    | error e => exact ⟨_, read_of_error hzero hdecode, e, rfl⟩
    | ok cs => exact absurd (Utf8.isValidUTF8_iff.mpr ⟨cs, hdecode⟩) hinvalid
  · rw [Utf8.isValidUTF8_iff, ← Utf8.not_encoding_iff]
    simp only [Utf8.decode_eq_ok_iff]
  · intro hvalid
    obtain ⟨cs, hdecode⟩ := Utf8.isValidUTF8_iff.mp hvalid
    exact ⟨cs, hdecode, Utf8.utf8Encode_eq_iff.mpr hdecode, read_of_ok hzero hdecode⟩

/-- A character of three bytes, and the same with half of a surrogate pair after it. -/
theorem read_decides_surrogate :
    let good : List UInt8 := [0xE2, 0x82, 0xAC]
    let bad : List UInt8 := good ++ [0xED, 0xA0, 0x80]
    0 ∉ bad ∧ Utf8.Malformed [0xED, 0xA0, 0x80] ∧
      (∃ f, read "a.tsx" bad = .error f ∧ "not valid UTF-8".toList <+: f.reason.toList) ∧
      0 ∉ good ∧ good.toByteArray.IsValidUTF8 ∧
      ∃ cs, Utf8.decode good = .ok cs ∧ cs.utf8Encode = good.toByteArray ∧
        read "a.tsx" good = (Syntax.parse (dialectOf "a.tsx") (Source.ofList cs)).elim
          (.error .grammar) (fun root => .ok ⟨"a.tsx", Source.ofList cs, root⟩) := by
  intro good bad
  have hbad : 0 ∉ bad := by decide
  have hgood : 0 ∉ good := by decide
  have hmalformed : Utf8.Malformed [0xED, 0xA0, 0x80] :=
    @Utf8.Malformed.surrogate 0xED [0xA0, 0x80] [] ⟨by decide, List.all_eq_true.mp (by decide)⟩ (by decide)
  have hvalid : good.toByteArray.IsValidUTF8 := Utf8.isValidUTF8_iff.mpr ⟨['€'], by rfl⟩
  obtain ⟨hrefused, hwhere, -⟩ := (read_decides "a.tsx" bad).2 hbad
  have hinvalid := hwhere.mpr ⟨['€'], _, by decide, hmalformed⟩
  exact ⟨hbad, hmalformed, hrefused.mpr hinvalid, hgood, hvalid,
    ((read_decides "a.tsx" good).2 hgood).2.2 hvalid⟩

end PropAtlas.SourceFile
