import PropAtlas.Query.Shorthand
import PropAtlas.Proofs.Text.Blank

/-! Criteria in one word. Every word without blanks at its ends is the spelling of one criterion, and is
refused only if that criterion names no prop. -/

namespace PropAtlas.Query.Shorthand

/-! ### Spellings -/

/-- The forms that have a spelling: a prop that is there or not, one with a value, or a name alone. -/
inductive Form : Criterion → String → Prop where
  | present (name : String) (wanted : Bool) :
      Form { name := Text.ofString name, present := some wanted } name
  | value (name text : String) (operator : Operator) :
      Form { name := Text.ofString name, operator, value := some (.text (Text.ofString text)) } name
  | bare (name : String) : Form { name := Text.ofString name } name

/-- The name ends before the first mark. -/
def Unmarked (name : String) : Prop := ∀ c ∈ name.toList, c ≠ '=' ∧ c ≠ '~'

/-- A name that stands alone is not taken for a name with a question or an exclamation mark after it. -/
def Unsuffixed (c : Criterion) (name : String) : Prop :=
  c.present = none → c.value = none → ∀ ch ∈ name.toList.getLast?, ch ≠ '?' ∧ ch ≠ '!'

/-- A criterion that is read back from its spelling. -/
structure Readable (c : Criterion) (name : String) : Prop where
  form : Form c name
  named : name ≠ ""
  unmarked : Unmarked name
  trimmed : Blank.strip name = name
  value : ∀ text, c.value = some (.text (Text.ofString text)) →
    ∀ ch ∈ text.toList.getLast?, Blank.isBlank ch = false
  unsuffixed : Unsuffixed c name

variable {c : Criterion} {name text : String} {cs : List Char}

theorem ofChars_append (cs ds : List Char) :
    Text.ofChars (cs ++ ds) = Text.ofChars cs ++ Text.ofChars ds := List.map_append

/-- The character after the name of a prop that is there, or is not. -/
def suffix (wanted : Bool) : Char := if wanted then '?' else '!'

def mark : Operator → Char
  | .equals => '='
  | .contains => '~'

theorem written_present (name : String) (wanted : Bool) :
    written { name := Text.ofString name, present := some wanted } =
      Text.ofChars (name.toList ++ [suffix wanted]) := by
  rw [ofChars_append]
  cases wanted <;> rfl

theorem written_value (name text : String) (operator : Operator) :
    written { name := Text.ofString name, operator, value := some (.text (Text.ofString text)) } =
      Text.ofChars (name.toList ++ mark operator :: text.toList) := by
  rw [← List.singleton_append, ← List.append_assoc, ofChars_append, ofChars_append]
  cases operator with
  | equals => exact congrArg (Text.ofString name ++ · ++ Text.ofString text) (rfl : Text.ofString "=" = _)
  | contains => exact congrArg (Text.ofString name ++ · ++ Text.ofString text) (rfl : Text.ofString "~" = _)

/-! ### Reading -/

theorem isEmpty_ofChars_iff : (Text.ofChars name.toList).isEmpty = true ↔ name = "" := by
  rw [Text.ofChars, List.isEmpty_map, List.isEmpty_iff, String.toList_eq_nil_iff]

theorem unmarked_iff : Unmarked name ↔ ∀ c ∈ name.toList, (!isMark c) = true := by
  simp [Unmarked, isMark]

theorem readChars_value (hname : Unmarked name) (text : String) (operator : Operator) :
    readChars (name.toList ++ mark operator :: text.toList) =
      if name = "" then none
      else some
        { name := Text.ofString name, operator, value := some (.text (Text.ofString text)) } := by
  have hmark : isMark (mark operator) = true := by cases operator <;> decide
  have htake : (name.toList ++ mark operator :: text.toList).takeWhile (fun c => !isMark c) =
      name.toList := by
    rw [List.takeWhile_append_of_pos (unmarked_iff.mp hname),
      List.takeWhile_cons_of_neg (by simp [hmark]), List.append_nil]
  have hdrop : (name.toList ++ mark operator :: text.toList).dropWhile (fun c => !isMark c) =
      mark operator :: text.toList := by
    rw [List.dropWhile_append_of_pos (unmarked_iff.mp hname),
      List.dropWhile_cons_of_neg (by simp [hmark])]
  simp only [readChars, htake, hdrop, isEmpty_ofChars_iff]
  cases operator <;> rfl

theorem dropWhile_unmarked (h : ∀ c ∈ cs, (!isMark c) = true) :
    cs.dropWhile (fun c => !isMark c) = [] :=
  Blank.dropWhile_eq_iff.mpr ⟨cs, (List.append_nil cs).symm, h, by simp⟩

theorem readChars_present (hname : Unmarked name) (wanted : Bool) :
    readChars (name.toList ++ [suffix wanted]) =
      if name = "" then none
      else some { name := Text.ofString name, present := some wanted } := by
  have hdrop : (name.toList ++ [suffix wanted]).dropWhile (fun c => !isMark c) = [] := by
    apply dropWhile_unmarked
    intro c hc
    rcases List.mem_append.mp hc with hc | hc
    · exact unmarked_iff.mp hname c hc
    · rw [List.mem_singleton.mp hc]
      cases wanted <;> decide
  simp only [readChars, hdrop, List.getLast?_concat, List.dropLast_concat, isEmpty_ofChars_iff]
  cases wanted <;> rfl

theorem readChars_bare (hname : Unmarked name)
    (hlast : ∀ c ∈ name.toList.getLast?, c ≠ '?' ∧ c ≠ '!') :
    readChars name.toList =
      if name = "" then none else some { name := Text.ofString name } := by
  have hdrop := dropWhile_unmarked (unmarked_iff.mp hname)
  simp only [readChars, hdrop, isEmpty_ofChars_iff]
  cases h : name.toList.getLast? with
  | none => rfl
  | some c =>
    obtain ⟨hquestion, hexclamation⟩ := hlast c h
    split
    · next heq => exact absurd (Option.some.inj heq) hquestion
    · next heq => exact absurd (Option.some.inj heq) hexclamation
    · rfl

/-- Every word is the spelling of a criterion. -/
theorem exists_form (word : String) :
    ∃ c name, Form c name ∧ Unmarked name ∧ Unsuffixed c name ∧
      written c = Text.ofString word := by
  have hsplit := List.takeWhile_append_dropWhile (p := fun c => !isMark c) (l := word.toList)
  have htake : ∀ c ∈ word.toList.takeWhile (fun c => !isMark c), (!isMark c) = true :=
    List.all_eq_true.mp List.all_takeWhile
  cases hdrop : word.toList.dropWhile (fun c => !isMark c) with
  | cons first text =>
    -- The first mark ends the name and says how the value is compared.
    have hfirst : first = '=' ∨ first = '~' := by
      have hnot := List.head?_dropWhile_not (fun c => !isMark c) word.toList
      rw [hdrop] at hnot
      simpa [isMark, Decidable.or_iff_not_imp_left] using hnot
    obtain ⟨operator, rfl⟩ : ∃ operator, first = mark operator := by
      rcases hfirst with rfl | rfl
      · exact ⟨.equals, rfl⟩
      · exact ⟨.contains, rfl⟩
    refine ⟨_, _, .value (String.ofList (word.toList.takeWhile (fun c => !isMark c)))
      (String.ofList text) operator, ?_, nofun, ?_⟩
    · rw [unmarked_iff, String.toList_ofList]
      exact htake
    · rw [written_value, String.toList_ofList, String.toList_ofList, ← hdrop, hsplit]
      rfl
  | nil =>
    rw [hdrop, List.append_nil] at hsplit
    rw [hsplit] at htake
    by_cases hlast : ∀ c ∈ word.toList.getLast?, c ≠ '?' ∧ c ≠ '!'
    · exact ⟨_, word, .bare word, unmarked_iff.mpr htake, fun _ _ => hlast, rfl⟩
    · obtain ⟨init, wanted, hinit⟩ : ∃ init wanted, word.toList = init ++ [suffix wanted] := by
        simp only [Classical.not_forall] at hlast
        obtain ⟨c, hc, hsuffix⟩ := hlast
        obtain ⟨init, hinit⟩ := List.getLast?_eq_some_iff.mp hc
        by_cases hquestion : c = '?'
        · subst hquestion
          exact ⟨init, true, hinit⟩
        · obtain rfl : c = '!' := Classical.not_not.mp (fun h => hsuffix ⟨hquestion, h⟩)
          exact ⟨init, false, hinit⟩
      refine ⟨_, _, .present (String.ofList init) wanted, ?_, nofun, ?_⟩
      · rw [unmarked_iff, String.toList_ofList]
        intro c hc
        exact htake c (hinit ▸ List.mem_append_left _ hc)
      · rw [written_present, String.toList_ofList, ← hinit]
        rfl

theorem toList_of_written {word : String} (hword : written c = Text.ofString word)
    (hcs : written c = Text.ofChars cs) : word.toList = cs := by
  have hsame : Text.ofString word = Text.ofString (String.ofList cs) := by
    rw [← hword, hcs, Text.ofString, String.toList_ofList]
  rw [Text.ofString_inj.mp hsame, String.toList_ofList]

/-- A criterion is read from its spelling, unless it names no prop. -/
theorem readChars_of_form {word : String} (hform : Form c name) (hname : Unmarked name)
    (hlast : Unsuffixed c name) (hword : written c = Text.ofString word) :
    readChars word.toList = if name = "" then none else some c := by
  cases hform with
  | present name wanted =>
    rw [toList_of_written hword (written_present name wanted)]
    exact readChars_present hname wanted
  | value name text operator =>
    rw [toList_of_written hword (written_value name text operator)]
    exact readChars_value hname text operator
  | bare name =>
    have hbare : word.toList = name.toList := toList_of_written hword rfl
    rw [hbare]
    exact readChars_bare hname (hlast rfl rfl)

theorem read_of_form {word : String} (hform : Form c name) (hname : Unmarked name)
    (hlast : Unsuffixed c name) (hword : written c = Text.ofString (Blank.strip word)) :
    read word = if name = "" then .error (.noName (Blank.strip word)) else .ok c := by
  rw [read, readChars_of_form hform hname hlast hword]
  by_cases hempty : name = ""
  · rw [if_pos hempty, if_pos hempty]
  · rw [if_neg hempty, if_neg hempty]

/-- A word that names a prop: something comes before the first mark, or before the last character if that
is a question or an exclamation mark. -/
def NamesProp (word : String) : Prop :=
  word ≠ "" ∧ word ≠ "?" ∧ word ≠ "!" ∧ ∀ c ∈ word.toList.head?, c ≠ '=' ∧ c ≠ '~'

/-- A criterion names a prop if and only if its spelling does. -/
theorem named_iff {word : String} (hform : Form c name) (hname : Unmarked name)
    (hlast : Unsuffixed c name) (hword : written c = Text.ofString word) :
    name ≠ "" ↔ NamesProp word := by
  constructor
  · intro hnamed
    obtain ⟨first, rest, hfirst⟩ := List.exists_cons_of_ne_nil (mt String.toList_eq_nil_iff.mp hnamed)
    have hunmarked : first ≠ '=' ∧ first ≠ '~' := hname first (by rw [hfirst]; exact List.mem_cons_self)
    -- A name and a character after it are two characters at least, and a name alone has no such ending.
    obtain ⟨more, hmore, hlong⟩ : ∃ more, word.toList = first :: more ∧
        (more = [] → first ≠ '?' ∧ first ≠ '!') := by
      cases hform with
      | present name wanted =>
        refine ⟨rest ++ [suffix wanted], ?_, by simp⟩
        rw [toList_of_written hword (written_present name wanted), hfirst, List.cons_append]
      | value name text operator =>
        refine ⟨rest ++ mark operator :: text.toList, ?_, by simp⟩
        rw [toList_of_written hword (written_value name text operator), hfirst, List.cons_append]
      | bare name =>
        refine ⟨rest, (toList_of_written hword rfl).trans hfirst, ?_⟩
        intro hrest
        apply hlast rfl rfl first
        rw [hfirst, hrest]
        rfl
    refine ⟨?_, ?_, ?_, ?_⟩
    · rintro rfl
      exact List.cons_ne_nil _ _ hmore.symm
    · rintro rfl
      obtain ⟨hhead, htail⟩ := List.cons.inj hmore
      exact (hlong htail.symm).1 hhead.symm
    · rintro rfl
      obtain ⟨hhead, htail⟩ := List.cons.inj hmore
      exact (hlong htail.symm).2 hhead.symm
    · rw [hmore]
      intro c hc
      rw [← Option.some.inj hc]
      exact hunmarked
  · rintro ⟨hword₀, hquestion, hexclamation, hhead⟩ hnameless
    have hnil : name.toList = [] := String.toList_eq_nil_iff.mpr hnameless
    cases hform with
    | present name wanted =>
      have hspelled := toList_of_written hword (written_present name wanted)
      rw [hnil] at hspelled
      cases wanted
      · exact hexclamation (String.toList_inj.mp hspelled)
      · exact hquestion (String.toList_inj.mp hspelled)
    | value name text operator =>
      have hspelled := toList_of_written hword (written_value name text operator)
      rw [hnil, List.nil_append] at hspelled
      obtain ⟨hequals, htilde⟩ := hhead (mark operator) (by rw [hspelled]; rfl)
      cases operator
      · exact hequals rfl
      · exact htilde rfl
    | bare name =>
      exact hword₀ (String.toList_eq_nil_iff.mp ((toList_of_written hword rfl).trans hnil))

/-- A name without blanks at its ends stays so with an ending that has no blank at its own end. -/
theorem strip_append {tail : List Char} (hnamed : name ≠ "") (htrimmed : Blank.strip name = name)
    (htail : ∀ c ∈ tail.getLast?, Blank.isBlank c = false) :
    Blank.strip (String.ofList (name.toList ++ tail)) = String.ofList (name.toList ++ tail) := by
  obtain ⟨hhead, hlast⟩ := Blank.stripOf_eq_self_iff.mp htrimmed
  apply Blank.stripOf_eq_self_iff.mpr
  rw [String.toList_ofList]
  constructor
  · obtain ⟨first, rest, hfirst⟩ := List.exists_cons_of_ne_nil (mt String.toList_eq_nil_iff.mp hnamed)
    rw [hfirst] at hhead ⊢
    exact hhead
  · intro c hc
    rw [List.getLast?_append, Option.mem_def, Option.or_eq_some_iff] at hc
    rcases hc with hc | ⟨-, hc⟩
    · exact htail c hc
    · exact hlast c hc

theorem Readable.exists_word (h : Readable c name) :
    ∃ word, written c = Text.ofString word ∧ Blank.strip word = word := by
  obtain ⟨hform, hnamed, -, htrimmed, hvalue, -⟩ := h
  have hword {cs : List Char} (hcs : written c = Text.ofChars cs) :
      written c = Text.ofString (String.ofList cs) := by
    rw [hcs, Text.ofString, String.toList_ofList]
  cases hform with
  | present name wanted =>
    refine ⟨_, hword (written_present name wanted), strip_append hnamed htrimmed ?_⟩
    intro last hlast
    rw [← Option.some.inj hlast]
    cases wanted <;> decide
  | value name text operator =>
    refine ⟨_, hword (written_value name text operator), strip_append hnamed htrimmed ?_⟩
    intro last hlast
    rw [List.getLast?_cons] at hlast
    cases htext : text.toList.getLast? with
    | none =>
      rw [htext] at hlast
      rw [← Option.some.inj hlast]
      cases operator <;> decide
    | some c =>
      rw [htext] at hlast
      exact hvalue text rfl last (htext.trans hlast)
  | bare name => exact ⟨name, rfl, htrimmed⟩

/-! ### The two directions -/

/-- Reading and writing undo each other. A word is read as the one criterion it spells, once the blanks
at its ends are gone, and is refused if and only if that criterion names no prop. A readable criterion
is read back from its spelling. -/
theorem read_unambiguous :
    (∀ word,
      ((∃ c, read word = .ok c) ↔ NamesProp (Blank.strip word)) ∧
      (∀ fault, read word = .error fault → fault = .noName (Blank.strip word)) ∧
      ∀ c, read word = .ok c →
        written c = Text.ofString (Blank.strip word) ∧ ∃ name, Form c name ∧ name ≠ "" ∧ Unmarked name) ∧
    ∀ c name, Readable c name → ∃ word, written c = Text.ofString word ∧ read word = .ok c := by
  constructor
  · intro word
    obtain ⟨c, name, hform, hname, hlast, hword⟩ := exists_form (Blank.strip word)
    have hread := read_of_form hform hname hlast hword
    rw [← named_iff hform hname hlast hword]
    by_cases hnamed : name = ""
    · rw [if_pos hnamed] at hread
      rw [hread]
      refine ⟨⟨nofun, fun h => absurd hnamed h⟩, ?_, nofun⟩
      intro fault hfault
      exact (Except.error.inj hfault).symm
    · rw [if_neg hnamed] at hread
      rw [hread]
      refine ⟨⟨fun _ => hnamed, fun _ => ⟨c, rfl⟩⟩, nofun, ?_⟩
      intro d hd
      rw [← Except.ok.inj hd]
      exact ⟨hword, name, hform, hnamed, hname⟩
  · intro c name hc
    obtain ⟨word, hword, htrimmed⟩ := hc.exists_word
    refine ⟨word, hword, ?_⟩
    rw [← htrimmed] at hword
    rw [read_of_form hc.form hc.unmarked hc.unsuffixed hword, if_neg hc.named]

/-- The first mark ends the name, so the value of `a?~b=c~` is all that follows it. -/
theorem read_unambiguous_value :
    let c : Criterion :=
      { name := Text.ofString "a?", operator := .contains, value := some (.text (Text.ofString "b=c~")) }
    written c = Text.ofString (Blank.strip " a?~b=c~ ") ∧
      ∃ word, written c = Text.ofString word ∧ read word = .ok c := by
  intro c
  have hread : read " a?~b=c~ " = .ok c := by rfl
  refine ⟨((read_unambiguous.1 _).2.2 c hread).1, read_unambiguous.2 c "a?" ?_⟩
  refine ⟨.value "a?" "b=c~" .contains, by decide, ?_, by decide, ?_, nofun⟩
  · exact unmarked_iff.mpr (List.all_eq_true.mp (by decide))
  · intro text htext last hlast
    have hsame : "b=c~" = text := Text.ofString_inj.mp (Scalar.text.inj (Option.some.inj htext))
    rw [← hsame] at hlast
    rw [← Option.some.inj hlast]
    decide

end PropAtlas.Query.Shorthand
