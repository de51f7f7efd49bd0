import PropAtlas.Text.CodePoint

/-!
Escapes in template text. A backslash and what follows it stand for one code point, for nothing at
the end of a line, or, where they spell no escape, for what follows the backslash. A backslash at the
very end stands for itself.
-/

namespace PropAtlas.Value.Escape

open PropAtlas (CodePoint Text)

def backslash : CodePoint := CodePoint.ofChar '\\'

def hexDigit? (p : CodePoint) : Option Nat :=
  if 0x30 ≤ p.val ∧ p.val ≤ 0x39 then some (p.val - 0x30)
  else if 0x41 ≤ p.val ∧ p.val ≤ 0x46 then some (p.val - 0x37)
  else if 0x61 ≤ p.val ∧ p.val ≤ 0x66 then some (p.val - 0x57)
  else none

def isHexDigit (p : CodePoint) : Bool := (hexDigit? p).isSome

def hexNumber (digits : Text) : Nat :=
  digits.foldl (fun n p => 16 * n + (hexDigit? p).getD 0) 0

/-- One or more digits in braces at the start of a text, and what is left after the braces. -/
def braced? : Text → Option (Text × Text)
  | [] => none
  | p :: rest =>
    if p = CodePoint.ofChar '{' then
      match rest.dropWhile isHexDigit with
      | [] => none
      | q :: left =>
        if q = CodePoint.ofChar '}' ∧ rest.takeWhile isHexDigit ≠ [] then
          some (rest.takeWhile isHexDigit, left)
        else none
    else none

/-- Exactly `count` digits at the start of a text, and what is left. -/
def fixed? (count : Nat) (t : Text) : Option (Text × Text) :=
  let digits := t.take count
  if digits.length = count ∧ digits.all isHexDigit then some (digits, t.drop count) else none

/-- The code point that digits name, or the escape as it is spelled if there is none. -/
def named (digits spelled : Text) : Text :=
  if h : hexNumber digits < 0x110000 then [⟨hexNumber digits, h⟩] else spelled

def simple (p : CodePoint) : CodePoint :=
  if p = CodePoint.ofChar 'n' then 0x0A
  else if p = CodePoint.ofChar 't' then 0x09
  else if p = CodePoint.ofChar 'r' then 0x0D
  else if p = CodePoint.ofChar 'b' then 0x08
  else if p = CodePoint.ofChar 'f' then 0x0C
  else if p = CodePoint.ofChar 'v' then 0x0B
  else if p = CodePoint.ofChar '0' then 0x00
  else p

/-- What the text after a backslash stands for, and what is left of it after the escape. -/
def read : Text → Text × Text
  | [] => ([backslash], [])
  | p :: rest =>
    if p = CodePoint.ofChar 'u' then
      match braced? rest with
      | some (digits, left) =>
        (named digits (p :: CodePoint.ofChar '{' :: digits ++ [CodePoint.ofChar '}']), left)
      | none =>
        match fixed? 4 rest with
        | some (digits, left) => (named digits (p :: digits), left)
        | none => ([p], rest)
    else if p = CodePoint.ofChar 'x' then
      match fixed? 2 rest with
      | some (digits, left) => (named digits (p :: digits), left)
      | none => ([p], rest)
    else if p = 0x0D then
      match rest with
      | q :: left => if q = 0x0A then ([], left) else ([], rest)
      | [] => ([], [])
    else if p = 0x0A ∨ p = 0x2028 ∨ p = 0x2029 then ([], rest)
    else ([simple p], rest)

theorem length_of_braced? {t digits left : Text} (h : braced? t = some (digits, left)) :
    left.length ≤ t.length := by
  unfold braced? at h
  split at h
  · simp at h
  · rename_i p rest
    split at h
    · split at h
      · simp at h
      · rename_i q l hd
        split at h
        · obtain ⟨-, rfl⟩ := by simpa using h
          have hl := (List.dropWhile_sublist isHexDigit (l := rest)).length_le
          rw [hd] at hl
          simp only [List.length_cons] at hl ⊢
          omega
        · simp at h
    · simp at h

theorem length_of_fixed? {n : Nat} {t digits left : Text} (h : fixed? n t = some (digits, left)) :
    left.length ≤ t.length := by
  unfold fixed? at h
  dsimp only at h
  split at h
  · obtain ⟨-, rfl⟩ := by simpa using h
    simp
  · simp at h

theorem length_read_le (t : Text) : (read t).2.length ≤ t.length := by
  unfold read
  split
  · simp
  · rename_i p rest
    split
    · split
      · rename_i h
        have := length_of_braced? h
        simp only [List.length_cons]
        omega
      · split
        · rename_i h
          have := length_of_fixed? h
          simp only [List.length_cons]
          omega
        · simp
    · split
      · split
        · rename_i h
          have := length_of_fixed? h
          simp only [List.length_cons]
          omega
        · simp
      · split
        · split
          · split <;> simp only [List.length_cons] <;> omega
          · simp
        · split <;> simp

/-- Replaces every escape of a template text by what it stands for. -/
def cook : Text → Text
  | [] => []
  | p :: rest =>
    if p = backslash then
      have := length_read_le rest
      (read rest).1 ++ cook (read rest).2
    else p :: cook rest
termination_by t => t.length
decreasing_by
  · simp only [List.length_cons]; omega
  · simp only [List.length_cons]; omega

end PropAtlas.Value.Escape
