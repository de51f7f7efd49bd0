import PropAtlas.Text.Quoted
import PropAtlas.Text.WholeNumber

/-!
Options of a command line. An option is given by its name or by the start of it, as long as no other
option starts the same, and its value follows in the next word or after an equals sign. Words are
sorted into options and operands first; then options take effect from left to right.
-/

namespace PropAtlas.CommandLine

variable {σ : Type}

inductive Effect (σ : Type) where
  | help
  | flag (set : σ → σ)
  | value (set : String → σ → Except String σ)

structure Switch (σ : Type) where
  names : List String
  effect : Effect σ
  required : Bool := false

inductive Stop where
  | help
  | usage (program message : String)
  deriving DecidableEq, Repr

def Switch.title (s : Switch σ) : String := String.intercalate "/" s.names

def Switch.complain (s : Switch σ) (program message : String) : Stop :=
  .usage program s!"argument {s.title}: {message}"

/-! ### Values -/

def oneOf (choices : List String) (value : String) : Except String String :=
  if choices.contains value then .ok value
  else
    let shown := String.intercalate ", " (choices.map Quoted.shownString)
    .error s!"invalid choice: {Quoted.shownString value} (choose from {shown})"

def wholeNumber (value : String) : Except String Int :=
  match WholeNumber.read? value with
  | some n => .ok n
  | none => .error s!"invalid int value: {Quoted.shownString value}"

def flag (name : String) (set : σ → σ) : Switch σ := ⟨[name], .flag set, false⟩

def text (name : String) (set : String → σ → σ) : Switch σ :=
  ⟨[name], .value (fun v s => .ok (set v s)), false⟩

def reading {α : Type} (name : String) (read : String → Except String α) (set : α → σ → σ) :
    Switch σ :=
  ⟨[name], .value (fun v s => (read v).map (fun a => set a s)), false⟩

def Switch.mandatory (s : Switch σ) : Switch σ := { s with required := true }

def helpSwitch : Switch σ := ⟨["-h", "--help"], .help, false⟩

/-! ### Words -/

/-- What a word is. An option may bring its value, `joined` without an equals sign. -/
inductive Word (σ : Type) where
  | operand
  | separator
  | unknown
  | option (switch : Switch σ) (given : Option String) (joined : Bool)

/-- The parts of a word before and after its first equals sign. -/
def splitEquals (cs : List Char) : List Char × Option (List Char) :=
  match cs.dropWhile (· != '=') with
  | [] => (cs, none)
  | _ :: value => (cs.takeWhile (· != '='), some value)

def named (switches : List (Switch σ)) : List (String × Switch σ) :=
  switches.flatMap (fun s => s.names.map (fun n => (n, s)))

/-- The options that a word may stand for, with what it brings. -/
def candidates (switches : List (Switch σ)) (word : List Char) :
    List (String × Switch σ × Option String × Bool) :=
  match word with
  | '-' :: '-' :: _ =>
    let (start, given) := splitEquals word
    (named switches).filterMap (fun (n, s) =>
      if start.isPrefixOf n.toList then some (n, s, given.map String.ofList, false) else none)
  | _ =>
    (named switches).filterMap (fun (n, s) =>
      if n.toList == word.take 2 then some (n, s, some (String.ofList (word.drop 2)), true)
      else if word.isPrefixOf n.toList then some (n, s, none, false)
      else none)

def isNegativeNumber (word : List Char) : Bool :=
  let isDigit (c : Char) : Bool := (WholeNumber.digit? c).isSome
  let ends (cs : List Char) : Bool := cs.isEmpty || cs == ['\n']
  match word with
  | '-' :: cs =>
    let rest := cs.dropWhile isDigit
    if !(cs.takeWhile isDigit).isEmpty && ends rest then true
    else
      match rest with
      | '.' :: fraction =>
        !(fraction.takeWhile isDigit).isEmpty && ends (fraction.dropWhile isDigit)
      | _ => false
  | _ => false

def classify (program : String) (switches : List (Switch σ)) (word : String) :
    Except Stop (Word σ) :=
  let cs := word.toList
  let exact (name : List Char) : Option (Switch σ) :=
    switches.find? (fun s => s.names.contains (String.ofList name))
  if cs.head? != some '-' then .ok .operand
  else
    match exact cs with
    | some s => .ok (.option s none false)
    | none =>
      if cs.length == 1 then .ok .operand
      else
        let (start, given) := splitEquals cs
        match given, exact start with
        | some v, some s => .ok (.option s (some (String.ofList v)) false)
        | _, _ =>
          match candidates switches cs with
          | [(_, s, v, joined)] => .ok (.option s v joined)
          | [] =>
            if isNegativeNumber cs || cs.contains ' ' then .ok .operand else .ok .unknown
          | many =>
            let names := String.intercalate ", " (many.map (·.1))
            .error (.usage program s!"ambiguous option: {word} could match {names}")

/-- Sorts words. After two dashes all words are operands. -/
def sort (program : String) (switches : List (Switch σ)) :
    List String → Except Stop (List (String × Word σ))
  | [] => .ok []
  | w :: ws =>
    if w == "--" then .ok ((w, .separator) :: ws.map (fun v => (v, .operand)))
    else do
      let c ← classify program switches w
      let rest ← sort program switches ws
      return (w, c) :: rest

/-! ### Effects -/

structure Progress (σ : Type) where
  settings : σ
  /-- The names of options that were given. -/
  seen : List String := []
  /-- Words that mean nothing. -/
  extras : List String := []
  /-- The words from the first operand on, if operands are waited for. -/
  operands : List String := []

def ignoredValue (program : String) (s : Switch σ) (v : String) : Stop :=
  s.complain program s!"ignored explicit argument {Quoted.shownString v}"

/-- Lets options take effect. If operands are waited for, reading ends at the first one. -/
def run (program : String) (waiting : Bool) :
    List (String × Word σ) → Progress σ → Except Stop (Progress σ)
  | [], p => .ok p
  | (w, .unknown) :: rest, p => run program waiting rest { p with extras := p.extras ++ [w] }
  | (w, .operand) :: rest, p =>
    if waiting then .ok { p with operands := w :: rest.map (·.1) }
    else run program waiting rest { p with extras := p.extras ++ [w] }
  | (w, .separator) :: rest, p =>
    if waiting && !rest.isEmpty then .ok { p with operands := w :: rest.map (·.1) }
    else run program waiting rest { p with extras := p.extras ++ [w] }
  | (_, .option s given joined) :: rest, p =>
    let seen := p.seen ++ s.names
    match s.effect, given with
    | .help, none => .error .help
    | .help, some v =>
      if joined && v.toList.head? != some '-' && v != "" then .error .help
      else .error (ignoredValue program s v)
    | .flag set, none => run program waiting rest { p with settings := set p.settings, seen }
    | .flag _, some v => .error (ignoredValue program s v)
    | .value set, some v =>
      match set v p.settings with
      | .ok t => run program waiting rest { p with settings := t, seen }
      | .error m => .error (s.complain program m)
    | .value set, none =>
      match rest with
      | (v, .operand) :: more =>
        match set v p.settings with
        | .ok t => run program waiting more { p with settings := t, seen }
        | .error m => .error (s.complain program m)
      | _ => .error (s.complain program "expected one argument")

def lacking (switches : List (Switch σ)) (p : Progress σ) : List String :=
  (switches.filter (fun s => s.required && !s.names.any p.seen.contains)).map Switch.title

def checkLacking (program : String) (names : List String) : Except Stop Unit :=
  if names.isEmpty then .ok ()
  else
    let shown := String.intercalate ", " names
    .error (.usage program s!"the following arguments are required: {shown}")

def checkExtras (program : String) (extras : List String) : Except Stop Unit :=
  if extras.isEmpty then .ok ()
  else
    let shown := String.intercalate " " extras
    .error (.usage program s!"unrecognized arguments: {shown}")

def options (program : String) (switches : List (Switch σ)) (start : σ) (words : List String) :
    Except Stop (Progress σ) := do
  let sorted ← sort program switches words
  let p ← run program false sorted { settings := start }
  checkLacking program (lacking switches p)
  return p

structure Outcome where
  /-- The exit code, if the program ends by itself. -/
  exit : Option Nat
  stdout : String := ""
  stderr : List String := []
  deriving DecidableEq, Repr

def Stop.outcome : Stop → Outcome
  | .help => { exit := some 0 }
  | .usage program message => { exit := some 2, stderr := [s!"{program}: error: {message}"] }

end PropAtlas.CommandLine
