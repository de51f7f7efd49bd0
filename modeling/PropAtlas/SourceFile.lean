import PropAtlas.Component.Extract
import PropAtlas.Path
import PropAtlas.Syntax.Grammar
import PropAtlas.Text.Utf8

/-!
From the bytes of a file to its syntax tree. A file is refused if it holds a zero byte, if it is not
UTF-8, or if it does not follow the grammar of its dialect.
-/

namespace PropAtlas.SourceFile

open PropAtlas.Syntax (Dialect Node)

inductive Fault where
  | binary
  | encoding (fault : Utf8.Fault)
  | grammar
  deriving DecidableEq, Repr

def Fault.reason : Fault → String
  | .binary => "binary content"
  | .encoding f => s!"not valid UTF-8 ({f.message})"
  -- The line and column that may follow here are those of a parser that recovers from errors. This one
  -- stops, so it has no such place to name.
  | .grammar => "syntax error"

def Fault.message (file : String) (f : Fault) : String :=
  s!"Failed to parse {file}: {f.reason}"

structure Parsed where
  file : String
  source : Source
  root : Node

/-- Files named `.ts` hold no markup. -/
def dialectOf (file : String) : Dialect :=
  if Path.suffix file == ".ts" then .typescript else .tsx

def read (file : String) (bytes : List UInt8) : Except Fault Parsed :=
  if bytes.contains 0 then .error .binary
  else
    match Utf8.decode bytes with
    | .error f => .error (.encoding f)
    | .ok cs =>
      let s := Source.ofList cs
      match Syntax.parse (dialectOf file) s with
      | some root => .ok ⟨file, s, root⟩
      | none => .error .grammar

def Parsed.analysis (p : Parsed) (o : Component.Selection)
    (supplied : Option (Table String PropsInterface) := none) : FileAnalysis :=
  Component.extract p.source p.file p.root o supplied

end PropAtlas.SourceFile
