import PropAtlas.Source
import PropAtlas.Syntax.Node
import PropAtlas.Syntax.Scan
import PropAtlas.Syntax.Parser
import PropAtlas.Syntax.Grammar.Names
import PropAtlas.Syntax.Grammar.Types
import PropAtlas.Syntax.Grammar.Patterns
import PropAtlas.Syntax.Grammar.Markup
import PropAtlas.Syntax.Grammar.Expressions
import PropAtlas.Syntax.Grammar.Classes
import PropAtlas.Syntax.Grammar.Statements
import PropAtlas.Syntax.Grammar
import PropAtlas.Text.CodePoint
import PropAtlas.Text.Utf8
import PropAtlas.Text.Cased
import PropAtlas.Text.LetterCase
import PropAtlas.Text.Printable
import PropAtlas.Text.Blank
import PropAtlas.Text.WholeNumber
import PropAtlas.Text.Quoted
import PropAtlas.Number.Double
import PropAtlas.Number.Shortest
import PropAtlas.Json.Basic
import PropAtlas.Json.Write
import PropAtlas.Table
import PropAtlas.Value.Escape
import PropAtlas.Value.Render
import PropAtlas.Component.Basic
import PropAtlas.Component.Interface
import PropAtlas.Component.Extract
import PropAtlas.Path
import PropAtlas.SourceFile
import PropAtlas.Query.Criterion
import PropAtlas.Query.Match
import PropAtlas.Query.Shorthand
import PropAtlas.Audit
import PropAtlas.Report.Record
import PropAtlas.Report.Shape
import PropAtlas.FileSystem.Entry
import PropAtlas.FileSystem.Host
import PropAtlas.FileSystem.Discovery
import PropAtlas.Log
import PropAtlas.Config
import PropAtlas.Session.Cache
import PropAtlas.Session.Analyzer
import PropAtlas.Session.Tool
import PropAtlas.CommandLine.Options
import PropAtlas.CommandLine.Command
import PropAtlas.CommandLine.Server
import PropAtlas.Main
import PropAtlas.Proofs.Table
import PropAtlas.Proofs.Component.Restriction
import PropAtlas.Proofs.Query.Instances
import PropAtlas.Proofs.Query.AuditAgreement
import PropAtlas.Proofs.FileSystem.RealPath
import PropAtlas.Proofs.Json.Digits
import PropAtlas.Proofs.Text.LetterCase
import PropAtlas.Proofs.Query.Rules
import PropAtlas.Proofs.Query.Checks
import PropAtlas.Proofs.Query.Fields
import PropAtlas.Proofs.Query.Elements
import PropAtlas.Proofs.Query.Arguments
import PropAtlas.Proofs.Query.Validation
import PropAtlas.Proofs.Query.Search
import PropAtlas.Proofs.Session.Readings
import PropAtlas.Proofs.Session.Transparency
import PropAtlas.Proofs.Component.Origin
import PropAtlas.Proofs.Report.Writers
import PropAtlas.Proofs.Report.Groups
import PropAtlas.Proofs.Report.Counts
import PropAtlas.Proofs.Session.Spellings
import PropAtlas.Proofs.Session.Repetition
import PropAtlas.Proofs.Query.Merging
import PropAtlas.Proofs.Syntax.Layout
import PropAtlas.Proofs.Component.DocumentOrder
import PropAtlas.Proofs.Path
import PropAtlas.Proofs.FileSystem.Home
import PropAtlas.Proofs.PathArgument
import PropAtlas.Proofs.FileSystem.Outline
import PropAtlas.Proofs.FileSystem.Discovery
import PropAtlas.Proofs.FileSystem.Markers
import PropAtlas.Proofs.FileSystem.Below
import PropAtlas.Proofs.Session.Confinement
import PropAtlas.Proofs.Session.Eviction
import PropAtlas.Proofs.Session.Failure
import PropAtlas.Proofs.Session.Locality
import PropAtlas.Proofs.Session.Coverage
import PropAtlas.Proofs.FileSystem.Leaves
import PropAtlas.Proofs.FileSystem.Places
import PropAtlas.Proofs.Text.LowerCase
import PropAtlas.Proofs.FileSystem.Suffix
import PropAtlas.Proofs.FileSystem.Walk
import PropAtlas.Proofs.FileSystem.Boundary
import PropAtlas.Proofs.Value.Texts
import PropAtlas.Proofs.Value.Needs
import PropAtlas.Proofs.Value.Loops
import PropAtlas.Proofs.Value.Recursion
import PropAtlas.Proofs.Value.Invariance
import PropAtlas.Proofs.Query.Combination
import PropAtlas.Proofs.Value.Spelling
import PropAtlas.Proofs.Value.Tiling
import PropAtlas.Proofs.Value.Pieces
import PropAtlas.Proofs.Query.Weakening
import PropAtlas.Proofs.Query.Consistency
import PropAtlas.Proofs.Query.Spreads
import PropAtlas.Proofs.Component.MemberAccess
import PropAtlas.Proofs.Session.OneProp
import PropAtlas.Proofs.Report.Abridgement
import PropAtlas.Proofs.Component.Wrappers
import PropAtlas.Proofs.Component.TypeAssociation
import PropAtlas.Proofs.Text.Blank
import PropAtlas.Proofs.Query.Shorthand
import PropAtlas.Proofs.Text.Malformed
import PropAtlas.Proofs.SourceFile
