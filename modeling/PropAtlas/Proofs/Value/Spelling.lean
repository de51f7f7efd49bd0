import PropAtlas.Value.Escape
import Mathlib.Data.List.Forall2
import Mathlib.Data.List.Induction
import Mathlib.Data.Nat.Digits.Defs

/-!
Spellings of a text in a template. A code point is written as it is, behind a backslash, by the letter of
an escape, or by its number in hexadecimal digits of either case.

Main statement: cooking gives a text back, whichever spelling each of its code points has.
-/

namespace PropAtlas.Value.Escape

open PropAtlas (CodePoint Text)

/-! ### Digits -/

/-- Nothing but hexadecimal digits. -/
def IsDigits (ds : Text) : Prop := ∀ d ∈ ds, isHexDigit d = true

theorem fixed?_eq_some_iff {count : Nat} {t ds left : Text} :
    fixed? count t = some (ds, left) ↔ t = ds ++ left ∧ ds.length = count ∧ IsDigits ds := by
  simp only [fixed?, Option.ite_none_right_eq_some, Option.some.injEq, Prod.mk.injEq,
    List.all_eq_true]
  constructor
  · rintro ⟨⟨hlength, hdigits⟩, rfl, rfl⟩
    exact ⟨(List.take_append_drop count t).symm, hlength, hdigits⟩
  · rintro ⟨rfl, rfl, hdigits⟩
    rw [List.take_left, List.drop_left]
    exact ⟨⟨rfl, hdigits⟩, rfl, rfl⟩

theorem braced?_eq_some_iff {t ds left : Text} :
    braced? t = some (ds, left) ↔
      t = CodePoint.ofChar '{' :: ds ++ CodePoint.ofChar '}' :: left ∧ ds ≠ [] ∧ IsDigits ds := by
  have hclosing : ¬ isHexDigit (CodePoint.ofChar '}') = true := by decide
  constructor
  · intro h
    cases t with
    | nil => cases h
    | cons p rest =>
      rw [braced?] at h
      by_cases hp : p = CodePoint.ofChar '{'
      · rw [if_pos hp] at h
        have hsplit := List.takeWhile_append_dropWhile (p := isHexDigit) (l := rest)
        have hdigits : IsDigits (rest.takeWhile isHexDigit) :=
          List.all_eq_true.mp List.all_takeWhile
        cases hdrop : rest.dropWhile isHexDigit with
        | nil => simp [hdrop] at h
        | cons q after =>
          rw [hdrop] at h hsplit
          simp only [Option.ite_none_right_eq_some, Option.some.injEq, Prod.mk.injEq] at h
          obtain ⟨⟨rfl, hne⟩, rfl, rfl⟩ := h
          rw [hp, List.cons_append, hsplit]
          exact ⟨rfl, hne, hdigits⟩
      · rw [if_neg hp] at h
        cases h
  · rintro ⟨rfl, hne, hdigits⟩
    rw [List.cons_append, braced?, if_pos rfl, List.dropWhile_append_of_pos hdigits,
      List.dropWhile_cons_of_neg hclosing, List.takeWhile_append_of_pos hdigits,
      List.takeWhile_cons_of_neg hclosing, List.append_nil]
    exact if_pos ⟨rfl, hne⟩

theorem read_braced {ds : Text} (hne : ds ≠ []) (hdigits : IsDigits ds) (rest : Text) :
    read (CodePoint.ofChar 'u' :: CodePoint.ofChar '{' :: ds ++ [CodePoint.ofChar '}'] ++ rest) =
      (named ds (CodePoint.ofChar 'u' :: CodePoint.ofChar '{' :: ds ++ [CodePoint.ofChar '}']),
        rest) := by
  have hbraced : braced? (CodePoint.ofChar '{' :: ds ++ CodePoint.ofChar '}' :: rest) =
      some (ds, rest) := braced?_eq_some_iff.mpr ⟨rfl, hne, hdigits⟩
  rw [List.append_assoc, List.singleton_append, List.cons_append, read.eq_def]
  dsimp only
  rw [if_pos rfl, hbraced]

theorem read_fourDigits {ds rest : Text} (hlength : ds.length = 4) (hdigits : IsDigits ds)
    (hbraced : braced? (ds ++ rest) = none) :
    read (CodePoint.ofChar 'u' :: ds ++ rest) = (named ds (CodePoint.ofChar 'u' :: ds), rest) := by
  have hfixed : fixed? 4 (ds ++ rest) = some (ds, rest) :=
    fixed?_eq_some_iff.mpr ⟨rfl, hlength, hdigits⟩
  rw [List.cons_append, read.eq_def]
  dsimp only
  rw [if_pos rfl, hbraced, hfixed]

theorem read_twoDigits {ds : Text} (hlength : ds.length = 2) (hdigits : IsDigits ds) (rest : Text) :
    read (CodePoint.ofChar 'x' :: ds ++ rest) = (named ds (CodePoint.ofChar 'x' :: ds), rest) := by
  have hx : CodePoint.ofChar 'x' ≠ CodePoint.ofChar 'u' := by decide
  have hfixed : fixed? 2 (ds ++ rest) = some (ds, rest) :=
    fixed?_eq_some_iff.mpr ⟨rfl, hlength, hdigits⟩
  rw [List.cons_append, read.eq_def]
  dsimp only
  rw [if_neg hx, if_pos rfl, hfixed]

/-! ### Numerals -/

/-- A hexadecimal digit and the case it is written in. -/
structure HexDigit where
  value : Fin 16
  upper : Bool

def HexDigit.char (d : HexDigit) : Char :=
  if d.upper then (Nat.digitChar d.value).toUpper else Nat.digitChar d.value

/-- Digits as they are written, the most significant one first. -/
def numeral (ds : List HexDigit) : Text := ds.map (fun d => CodePoint.ofChar d.char)

/-- The number that digits stand for. -/
def number (ds : List HexDigit) : Nat := Nat.ofDigits 16 (ds.reverse.map (fun d => d.value.val))

theorem hexDigit?_char (d : HexDigit) : hexDigit? (CodePoint.ofChar d.char) = some d.value.val := by
  have hall : ∀ (value : Fin 16) (upper : Bool),
      hexDigit? (CodePoint.ofChar (HexDigit.mk value upper).char) = some value.val := by decide
  exact hall d.value d.upper

theorem isHexDigit_of_mem_numeral {ds : List HexDigit} {p : CodePoint} (h : p ∈ numeral ds) :
    isHexDigit p = true := by
  obtain ⟨d, _, rfl⟩ := List.mem_map.mp h
  rw [isHexDigit, hexDigit?_char]
  rfl

theorem length_numeral (ds : List HexDigit) : (numeral ds).length = ds.length := List.length_map _

theorem numeral_ne_nil {ds : List HexDigit} (h : ds ≠ []) : numeral ds ≠ [] := by
  simpa [numeral] using h

theorem hexNumber_numeral (ds : List HexDigit) : hexNumber (numeral ds) = number ds := by
  -- By the last digit: it is the one that both sides add after they multiply by 16.
  induction ds using List.reverseRecOn with
  | nil => rfl
  | append_singleton ds d ih =>
    have hlast : hexNumber (numeral (ds ++ [d])) = 16 * hexNumber (numeral ds) + d.value.val := by
      simp [numeral, hexNumber, hexDigit?_char]
    have hofDigits : number (ds ++ [d]) = d.value.val + 16 * number ds := by
      simp [number, Nat.ofDigits_cons]
    rw [hlast, hofDigits, ih]
    omega

/-- The number of a code point names the code point. -/
theorem named_numeral {ds : List HexDigit} {c : CodePoint} (h : number ds = c.val) (spelled : Text) :
    named (numeral ds) spelled = [c] := by
  have hvalue : hexNumber (numeral ds) = c.val := (hexNumber_numeral ds).trans h
  have hlt : hexNumber (numeral ds) < 0x110000 := hvalue ▸ c.isLt
  rw [named, dif_pos hlt]
  exact congrArg (fun p => [p]) (Fin.ext hvalue)

theorem isDigits_numeral (ds : List HexDigit) : IsDigits (numeral ds) :=
  fun _ hp => isHexDigit_of_mem_numeral hp

/-- Digits without braces are not taken for digits in braces: no digit is a brace. -/
theorem braced?_numeral_eq_none {ds : List HexDigit} (hne : ds ≠ []) (rest : Text) :
    braced? (numeral ds ++ rest) = none := by
  obtain ⟨d, ds, rfl⟩ := List.exists_cons_of_ne_nil hne
  have hdigit : CodePoint.ofChar d.char ≠ CodePoint.ofChar '{' := by
    intro h
    have hbrace : hexDigit? (CodePoint.ofChar '{') = none := by decide
    have hvalue := hexDigit?_char d
    rw [h, hbrace] at hvalue
    cases hvalue
  change braced? (CodePoint.ofChar d.char :: (numeral ds ++ rest)) = none
  rw [braced?, if_neg hdigit]

/-! ### Spellings -/

/-- The letters that stand for another code point after a backslash. -/
def letters : List (Char × CodePoint) :=
  [('n', .ofChar '\n'), ('t', .ofChar '\t'), ('r', .ofChar '\r'), ('b', .ofChar '\x08'),
    ('f', .ofChar '\x0c'), ('v', .ofChar '\x0b'), ('0', .ofChar '\x00')]

/-- The code points that mean something in a template unless they stand behind a backslash. -/
def shielded : List CodePoint := [backslash, CodePoint.ofChar '\x60', CodePoint.ofChar '$']

/-- What may be written after a backslash for a code point. -/
inductive Escapes (c : CodePoint) : Text → Prop where
  | shielded (h : c ∈ shielded) : Escapes c [c]
  | letter (l : Char) (h : (l, c) ∈ letters) : Escapes c [CodePoint.ofChar l]
  | twoDigits (ds : List HexDigit) (hlength : ds.length = 2) (h : number ds = c.val) :
      Escapes c (CodePoint.ofChar 'x' :: numeral ds)
  | fourDigits (ds : List HexDigit) (hlength : ds.length = 4) (h : number ds = c.val) :
      Escapes c (CodePoint.ofChar 'u' :: numeral ds)
  | braced (ds : List HexDigit) (hne : ds ≠ []) (h : number ds = c.val) :
      Escapes c (CodePoint.ofChar 'u' :: CodePoint.ofChar '{' :: numeral ds ++ [CodePoint.ofChar '}'])

/-- What may be written in a template for a code point. -/
inductive Spells (c : CodePoint) : Text → Prop where
  | itself (h : c ≠ backslash) : Spells c [c]
  | escape {e : Text} (h : Escapes c e) : Spells c (backslash :: e)

variable {c : CodePoint} {e : Text}

/-! ### Cooking -/

theorem cook_nil : cook [] = [] := by rw [cook]

theorem cook_backslash (t : Text) : cook (backslash :: t) = (read t).1 ++ cook (read t).2 := by
  rw [cook, if_pos rfl]

theorem cook_plain (h : c ≠ backslash) (t : Text) : cook (c :: t) = c :: cook t := by
  rw [cook, if_neg h]

/-- An escape is read whole and stands for its code point, whatever comes after it. -/
theorem read_of_escapes (h : Escapes c e) (rest : Text) : read (e ++ rest) = ([c], rest) := by
  cases h with
  | shielded h =>
    simp only [shielded, List.mem_cons, List.not_mem_nil, or_false] at h
    rcases h with rfl | rfl | rfl
    · rfl
    · rfl
    · rfl
  | letter l h =>
    simp only [letters, List.mem_cons, Prod.mk.injEq, List.not_mem_nil, or_false] at h
    rcases h with ⟨rfl, rfl⟩ | ⟨rfl, rfl⟩ | ⟨rfl, rfl⟩ | ⟨rfl, rfl⟩ | ⟨rfl, rfl⟩ | ⟨rfl, rfl⟩ |
      ⟨rfl, rfl⟩ <;> rfl
  | twoDigits ds hlength h =>
    rw [read_twoDigits ((length_numeral ds).trans hlength) (isDigits_numeral ds), named_numeral h]
  | fourDigits ds hlength h =>
    have hne : ds ≠ [] := List.ne_nil_of_length_pos (by omega)
    rw [read_fourDigits ((length_numeral ds).trans hlength) (isDigits_numeral ds)
      (braced?_numeral_eq_none hne rest), named_numeral h]
  | braced ds hne h =>
    rw [read_braced (numeral_ne_nil hne) (isDigits_numeral ds), named_numeral h]

theorem cook_of_spells (h : Spells c e) (rest : Text) : cook (e ++ rest) = c :: cook rest := by
  cases h with
  | itself h => exact cook_plain h rest
  | escape h =>
    rw [List.cons_append, cook_backslash, read_of_escapes h]
    rfl

/-- Cooking gives a text back from any spelling of its code points, one after the other. -/
theorem cook_spelled {t : Text} {spellings : List Text} (h : List.Forall₂ Spells t spellings) :
    cook spellings.flatten = t := by
  induction h with
  | nil => exact cook_nil
  | cons hfirst _ ih => rw [List.flatten_cons, cook_of_spells hfirst, ih]

/-- Spellings that could be taken for others: a digit after two digits, braces after an escaped backslash
and a letter, half of a surrogate pair, leading zeros, and a dollar sign in front of a brace. -/
theorem cook_spelled_mixture :
    let digit (value : Fin 16) : HexDigit := ⟨value, value = 15⟩
    let faceDigits := [digit 0, digit 0, digit 1, digit 15, digit 6, digit 0, digit 0]
    let face : Text := CodePoint.ofChar 'u' :: CodePoint.ofChar '{' :: numeral faceDigits ++
      [CodePoint.ofChar '}']
    let spellings : List Text := [Text.ofString "\\x42", Text.ofString "1", Text.ofString "\\\\",
      Text.ofString "u", Text.ofString "\x7b", Text.ofString "\\ud83d", Text.ofString "\\n",
      backslash :: face, Text.ofString "\\$", Text.ofString "\x7d"]
    let text : Text := [0x42, 0x31, 0x5C, 0x75, 0x7B, 0xD83D, 0x0A, 0x1F600, 0x24, 0x7D]
    face = Text.ofString "u\x7b001F600\x7d" ∧ List.Forall₂ Spells text spellings ∧
      cook spellings.flatten = text := by
  intro digit faceDigits face spellings text
  have h : List.Forall₂ Spells text spellings := by
    refine .cons ?_ (.cons ?_ (.cons ?_ (.cons ?_ (.cons ?_ (.cons ?_ (.cons ?_ (.cons ?_
      (.cons ?_ (.cons ?_ .nil)))))))))
    · exact .escape (.twoDigits [digit 4, digit 2] rfl (by decide))
    · exact .itself (by decide)
    · exact .escape (.shielded (by decide))
    · exact .itself (by decide)
    · exact .itself (by decide)
    · exact .escape (.fourDigits [digit 13, digit 8, digit 3, digit 13] rfl (by decide))
    · exact .escape (.letter 'n' (by decide))
    · exact .escape (.braced faceDigits (by decide) (by decide))
    · exact .escape (.shielded (by decide))
    · exact .itself (by decide)
  exact ⟨by decide, h, cook_spelled h⟩

end PropAtlas.Value.Escape
