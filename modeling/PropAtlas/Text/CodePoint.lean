/-!
Text as a sequence of Unicode code points. A value rendered from a template may hold half of a
surrogate pair, which no `Char` is, so rendered values are such sequences and not strings.
-/

namespace PropAtlas

/-- A Unicode code point, surrogates included. -/
abbrev CodePoint : Type := Fin 0x110000

abbrev Text : Type := List CodePoint

namespace CodePoint

def ofChar (c : Char) : CodePoint :=
  ⟨c.toNat, by
    have h := c.valid
    simp only [UInt32.isValidChar, Nat.isValidChar] at h
    have : c.toNat = c.val.toNat := rfl
    omega⟩

/-- The character of a code point, unless it is a surrogate. -/
def toChar? (p : CodePoint) : Option Char :=
  if h : p.val.isValidChar then some (Char.ofNatAux p.val h) else none

theorem toChar?_ofChar (c : Char) : (ofChar c).toChar? = some c := by
  have h : (ofChar c).val.isValidChar := c.valid
  rw [toChar?, dif_pos h]
  rfl

theorem eq_ofChar_of_toChar? {p : CodePoint} {c : Char} (h : p.toChar? = some c) : p = ofChar c := by
  by_cases hp : p.val.isValidChar
  · rw [toChar?, dif_pos hp] at h
    cases h
    rfl
  · rw [toChar?, dif_neg hp] at h
    cases h

end CodePoint

namespace Text

def ofChars (cs : List Char) : Text := cs.map CodePoint.ofChar

def ofString (s : String) : Text := ofChars s.toList

def toString? (t : Text) : Option String :=
  (t.mapM CodePoint.toChar?).map String.ofList

/-- A text that is a string is the text of that string. -/
theorem eq_ofString_of_toString? {t : Text} {s : String} (h : t.toString? = some s) :
    t = ofString s := by
  have hchars (cs : List Char) (hcs : t.mapM CodePoint.toChar? = some cs) : t = ofChars cs := by
    clear h
    induction t generalizing cs with
    | nil =>
      cases hcs
      rfl
    | cons p t ih =>
      rw [List.mapM_cons] at hcs
      obtain ⟨c, hc, hrest⟩ := Option.bind_eq_some_iff.mp hcs
      obtain ⟨ds, hds, heq⟩ := Option.bind_eq_some_iff.mp hrest
      cases heq
      rw [CodePoint.eq_ofChar_of_toChar? hc, ih ds hds]
      rfl
  obtain ⟨cs, hcs, rfl⟩ := Option.map_eq_some_iff.mp h
  rw [hchars cs hcs, ofString, String.toList_ofList]

theorem toString?_ofString (s : String) : (ofString s).toString? = some s := by
  have hchars (cs : List Char) : (ofChars cs).mapM CodePoint.toChar? = some cs := by
    induction cs with
    | nil => rfl
    | cons c cs ih =>
      change (CodePoint.ofChar c :: ofChars cs).mapM CodePoint.toChar? = _
      rw [List.mapM_cons, CodePoint.toChar?_ofChar, ih]
      rfl
  rw [toString?, ofString, hchars, Option.map_some, String.ofList_toList]

theorem ofString_inj {s t : String} : ofString s = ofString t ↔ s = t := by
  constructor
  · intro h
    have hs := toString?_ofString s
    rw [h, toString?_ofString] at hs
    exact (Option.some.inj hs).symm
  · rintro rfl
    rfl

/-- Whether `part` occurs in a text as one piece. -/
def hasPart (t part : Text) : Bool :=
  match t with
  | [] => part.isEmpty
  | p :: rest => part.isPrefixOf (p :: rest) || hasPart rest part

end Text

end PropAtlas
