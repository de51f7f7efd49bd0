import PropAtlas.Syntax.Grammar.Markup
import PropAtlas.Syntax.Grammar.Statements

/-!
The grammar as a whole. The rules refer to each other through one function that counts down, so that
nesting is bounded; the bound is taken from the length of the source, and a rule reads at least one
token on every few levels, so no source that fits the rules runs out of it.
-/

namespace PropAtlas.Syntax

open PropAtlas (Source)

/-- The rules, nested at most `depth` deep. -/
def Grammar.rules : (depth : Nat) → Rules
  | 0, _ => failure
  | depth + 1, rule =>
    let inner := Grammar.rules depth
    match rule with
    | .sequence => Grammar.sequenceRule inner
    | .expression noIn noReturnType => Grammar.expressionRule inner noIn noReturnType
    | .operation level noIn noReturnType => Grammar.operationRule inner level noIn noReturnType
    | .pattern => Grammar.patternRule inner
    | .parameters => Grammar.parametersRule inner
    | .type noConditional => Grammar.typeRule inner noConditional
    | .typeArguments => Grammar.typeArgumentsRule inner
    | .typeParameters => Grammar.typeParametersRule inner
    | .objectType => Grammar.objectTypeRule inner
    | .block => Grammar.blockRule inner
    | .classBody => Grammar.classBodyRule inner
    | .statement => Grammar.statementRule inner
    | .element => Grammar.elementRule inner

def Grammar.program (rules : Rules) : Parser (List Node) := do
  let statements ← Parser.many do
    if ← Parser.atEnd then return none else return some (← rules .statement)
  if ← Parser.atEnd then return statements else failure

/-- Where the first statement of a source may start: after a line that names an interpreter. -/
def Grammar.firstLine (s : Source) : Nat :=
  if s.hasAt 0 ['#', '!'] then s.scanWhile (· != '\n') 0 else 0

mutual

def Node.addComment (c : Span) : Node → Node
  | .mk kind field span children => .mk kind field span (Node.insertComment c children)

/-- Places a comment before the first node that starts after it, or inside the node around it. -/
def Node.insertComment (c : Span) : List Node → List Node
  | [] => [.mk .comment none c []]
  | n :: ns =>
    if c.stop ≤ n.span.start then .mk .comment none c [] :: n :: ns
    else if c.start < n.span.stop then n.addComment c :: ns
    else n :: Node.insertComment c ns

end

/-- The tree of a source, or `none` if it does not follow the grammar. -/
def parse (dialect : Dialect) (s : Source) : Option Node :=
  let start := Cursor.after s (Grammar.firstLine s) []
  match Grammar.program (Grammar.rules (16 * s.size + 64)) ⟨dialect, s⟩ start with
  | some (statements, c) =>
    let root := Node.mk .other none ⟨0, s.size⟩ statements
    some ((c.pending ++ c.comments).foldr (fun (a, b) n => n.addComment ⟨a, b⟩) root)
  | none => none

end PropAtlas.Syntax
