import Inliner.CommandLine.Arguments
import Inliner.CommandLine.Report
import Inliner.CommandLine.Run
import Inliner.CommandLine.Scope
import Inliner.Config.Decode
import Inliner.Config.File
import Inliner.Config.Merge
import Inliner.Data.Decimal
import Inliner.Data.Json
import Inliner.Data.Toml.Document
import Inliner.Data.Toml.Scalar
import Inliner.Data.Value
import Inliner.File.Location
import Inliner.File.Path
import Inliner.File.Pattern
import Inliner.File.Tree
import Inliner.Language
import Inliner.Main
import Inliner.Merge.Error
import Inliner.Merge.Module
import Inliner.Merge.Outcome
import Inliner.Merge.Output
import Inliner.Merge.Plan
import Inliner.Merge.Registry
import Inliner.Merge.Resolution
import Inliner.Merge.Walk
import Inliner.Proofs.Walk.Invariant
import Inliner.Proofs.Walk.Requests
import Inliner.Selection.Choice
import Inliner.Selection.Closure
import Inliner.Selection.Placement
import Inliner.Selection.Prerequisites
import Inliner.Selection.Select
import Inliner.Source.Error
import Inliner.Source.Import
import Inliner.Source.ModulePath
import Inliner.Source.Parsed
import Inliner.Source.Render
import Inliner.Source.Segment
import Inliner.Source.Statement
import Inliner.Syntax.CasePattern
import Inliner.Syntax.Expression
import Inliner.Syntax.Fault
import Inliner.Syntax.Grammar
import Inliner.Syntax.Layout
import Inliner.Syntax.Literal
import Inliner.Syntax.Occurrence
import Inliner.Syntax.Parser
import Inliner.Syntax.Program
import Inliner.Syntax.Statement
import Inliner.Syntax.Token
import Inliner.Syntax.Tree
import Inliner.Text.Basic
import Inliner.Text.Blank
import Inliner.Text.BlankLines
import Inliner.Text.CharSet
import Inliner.Text.EscapeTable
import Inliner.Text.Identifier
import Inliner.Text.IdentifierTable
import Inliner.Text.LetterTable
import Inliner.Text.Lines
import Inliner.Text.Quoted
import Inliner.Proofs.Merge.Pieces
import Inliner.Proofs.Merge.SingleInclusion
import Inliner.Proofs.Selection.RunOrder
import Inliner.Proofs.File.Paths
import Inliner.Proofs.Merge.Failure
import Inliner.Proofs.Merge.Edits
import Inliner.Proofs.Merge.MainChunk
import Inliner.Proofs.Walk.Termination
import Inliner.Proofs.Walk.Consistency
import Inliner.Proofs.Walk.Precedence
import Inliner.Proofs.Merge.DependencyOrder
import Inliner.Proofs.Source.SharedLines
import Inliner.Proofs.Source.Unedited
import Inliner.Proofs.File.Replacement
import Inliner.Proofs.Merge.PassThrough
import Inliner.Proofs.Merge.FixedPoint
import Inliner.Proofs.File.Locations
import Inliner.Proofs.Merge.Lookups
import Inliner.Proofs.Walk.Reads
import Inliner.Proofs.Merge.Leniency
import Inliner.Proofs.Merge.Unrelated
import Inliner.Proofs.Source.ModulePaths
import Inliner.Proofs.Merge.Containment
import Inliner.Proofs.Selection.DependencyClosure
import Inliner.Proofs.Merge.Inspection
import Inliner.Proofs.File.Writing
import Inliner.Proofs.CommandLine.AllOrNothing
import Inliner.Proofs.Merge.TextLayout
import Inliner.Proofs.Selection.PlacementOrder
import Inliner.Proofs.Selection.RequestOrder
import Inliner.Proofs.Selection.KeptCode
import Inliner.Proofs.Merge.Aliases
import Inliner.Proofs.Source.Partition
import Inliner.Proofs.Source.LocalEdits
import Inliner.Proofs.Text.Spacing
import Inliner.Proofs.File.Identity
import Inliner.Proofs.Merge.ResolutionRules
import Inliner.Proofs.Syntax.Scoping
import Inliner.Proofs.Syntax.Collecting
import Inliner.Proofs.Selection.Worklist
import Inliner.Proofs.Selection.PrerequisiteSearch
import Inliner.Proofs.Selection.Enumeration
import Inliner.Proofs.Merge.NamedImport
import Inliner.Proofs.Syntax.Expressions
import Inliner.Proofs.Syntax.Bindings
import Inliner.Proofs.Source.BoundNames
import Inliner.Proofs.Config.Anchoring
import Inliner.Proofs.Selection.DeclaredPrerequisites
import Inliner.Proofs.Selection.BracketedVisits
import Inliner.Proofs.Merge.Registration
import Inliner.Proofs.Merge.DisplayedModules
