import PropAtlas.Table
import PropAtlas.Text.LetterCase

/-!
Log messages: their levels, the threshold below which they are dropped, and their lines.
-/

namespace PropAtlas.Log

inductive Level where
  | debug
  | info
  | warning
  | error
  | critical
  deriving DecidableEq, Repr

namespace Level

def all : List Level := [.debug, .info, .warning, .error, .critical]

def name : Level → String
  | .debug => "DEBUG"
  | .info => "INFO"
  | .warning => "WARNING"
  | .error => "ERROR"
  | .critical => "CRITICAL"

def severity : Level → Nat
  | .debug => 10
  | .info => 20
  | .warning => 30
  | .error => 40
  | .critical => 50

end Level

structure Message where
  level : Level
  text : String
  deriving DecidableEq, Repr

def thresholds : Table String Nat :=
  [("CRITICAL", 50), ("FATAL", 50), ("ERROR", 40), ("WARNING", 30), ("WARN", 30), ("INFO", 20),
    ("DEBUG", 10), ("NOTSET", 0)]

/-- The threshold of a name in any case. An unknown or empty name stands for information. -/
def threshold (name : Option String) : Nat :=
  let given := name.getD ""
  (thresholds.get? (LetterCase.upper (if given.isEmpty then "INFO" else given))).getD
    Level.info.severity

/-- The threshold in force: `verbose` asks for everything. -/
def configured (verbose : Bool) (name : Option String) : Nat :=
  if verbose then Level.debug.severity else threshold name

/-- Whether a message is written. A threshold of zero leaves the decision to the default, which is to
write warnings. -/
def passes (threshold : Nat) (l : Level) : Bool :=
  (if threshold = 0 then Level.warning.severity else threshold) ≤ l.severity

def Message.line (m : Message) : String :=
  "[jsx-prop-lookup] " ++ m.level.name ++ " " ++ m.text

def lines (threshold : Nat) (ms : List Message) : List String :=
  (ms.filter (fun m => passes threshold m.level)).map Message.line

def packageName : String := "jsx_prop_lookup"

def loggerName (part : Option String) : String :=
  match part with
  | none => packageName
  | some p =>
    if p.isEmpty then packageName
    else if p == packageName || p.startsWith (packageName ++ ".") then p
    else packageName ++ "." ++ p

end PropAtlas.Log
