import RawHtmlLint.Text.Blank
import RawHtmlLint.Text.Slice
import RawHtmlLint.Text.Pattern
import RawHtmlLint.Text.Lines
import RawHtmlLint.Text.Ranges
import RawHtmlLint.Text.Word
import RawHtmlLint.Text.CaseRanges
import RawHtmlLint.Text.Case
import RawHtmlLint.Text.Printable
import RawHtmlLint.Text.Quoted
import RawHtmlLint.Text.Width
import RawHtmlLint.Text.EntityTable
import RawHtmlLint.Text.Entity
import RawHtmlLint.Text.Utf8
import RawHtmlLint.Text.Base64
import RawHtmlLint.Json.Basic
import RawHtmlLint.Json.Printer
import RawHtmlLint.Json.Parser
import RawHtmlLint.Source
import RawHtmlLint.Problem
import RawHtmlLint.Diagnostic
import RawHtmlLint.Log
import RawHtmlLint.Grammar.Tree
import RawHtmlLint.Grammar.Registry
import RawHtmlLint.Grammar.FromJson
import RawHtmlLint.Script.Cursor
import RawHtmlLint.Script.Expression
import RawHtmlLint.Template.Directive
import RawHtmlLint.Template.Node
import RawHtmlLint.Template.Node.Json
import RawHtmlLint.Template.Node.FromJson
import RawHtmlLint.Template.Separator
import RawHtmlLint.Template.Markup
import RawHtmlLint.Template.Context
import RawHtmlLint.Template.Part
import RawHtmlLint.Template.Header
import RawHtmlLint.Template.Frame
import RawHtmlLint.Template.Tag
import RawHtmlLint.Template.Attribute
import RawHtmlLint.Template.Block
import RawHtmlLint.Template.Element
import RawHtmlLint.Template.Conversion
import RawHtmlLint.Template.Parse
import RawHtmlLint.Rule.Insertion
import RawHtmlLint.Report
import RawHtmlLint.Process
import RawHtmlLint.Analysis
import RawHtmlLint.Path
import RawHtmlLint.FileTree
import RawHtmlLint.FileTree.Listed
import RawHtmlLint.FileTree.FromJson
import RawHtmlLint.Settings.EnvFile
import RawHtmlLint.Settings
import RawHtmlLint.Console
import RawHtmlLint.Report.Listing
import RawHtmlLint.CommandLine.Arguments
import RawHtmlLint.CommandLine
import RawHtmlLint.CommandLine.FromJson
import RawHtmlLint.Main
import RawHtmlLint.Proofs.Outcome
import RawHtmlLint.Proofs.Lookup
import RawHtmlLint.Proofs.Json.Same
import RawHtmlLint.Proofs.Text.Slice
import RawHtmlLint.Proofs.Text.Pattern
import RawHtmlLint.Proofs.Text.Utf8
import RawHtmlLint.Proofs.Text.Entity
import RawHtmlLint.Proofs.Offset
import RawHtmlLint.Proofs.Position
import RawHtmlLint.Proofs.Template.Adaptation
import RawHtmlLint.Proofs.Template.Descent
import RawHtmlLint.Proofs.Rule.Walk
import RawHtmlLint.Proofs.Process
import RawHtmlLint.Proofs.Rule.DirectCall
import RawHtmlLint.Proofs.Template.Recursion
import RawHtmlLint.Proofs.Template.WellFormed
import RawHtmlLint.Proofs.Template.Tags
import RawHtmlLint.Proofs.Template.Layout
import RawHtmlLint.Proofs.Template.Branches
import RawHtmlLint.Proofs.Template.Faithful
import RawHtmlLint.Proofs.Template.Row
import RawHtmlLint.Proofs.Template.Fidelity
import RawHtmlLint.Proofs.Template.Tiling
import RawHtmlLint.Proofs.Template.Braces
import RawHtmlLint.Proofs.Template.Dialect
import RawHtmlLint.Proofs.Template.SourceOrder
import RawHtmlLint.Proofs.Rule.SourceOrder
import RawHtmlLint.Proofs.Template.Reach
import RawHtmlLint.Proofs.Template.Failures
import RawHtmlLint.Proofs.Template.Sound
import RawHtmlLint.Proofs.Template.Rejection
import RawHtmlLint.Proofs.Analysis
import RawHtmlLint.Proofs.Rule.Adjacency
import RawHtmlLint.Proofs.Rule.Trust
import RawHtmlLint.Proofs.Template.Scripts
import RawHtmlLint.Proofs.Template.LangAttribute
import RawHtmlLint.Proofs.Template.ScriptLanguage
import RawHtmlLint.Proofs.Text.Search
import RawHtmlLint.Proofs.Script.ClosingBrace
import RawHtmlLint.Proofs.Script.Automaton
import RawHtmlLint.Proofs.Script.Complete
import RawHtmlLint.Proofs.Text.Blank
import RawHtmlLint.Proofs.Path
import RawHtmlLint.Proofs.FileTree
import RawHtmlLint.Proofs.CommandLine.Check
import RawHtmlLint.Proofs.Template.BranchLabels
import RawHtmlLint.Proofs.Template.Ownership
import RawHtmlLint.Proofs.Template.EachHeader
import RawHtmlLint.Proofs.Template.Found
import RawHtmlLint.Proofs.Template.Overwriting
import RawHtmlLint.Proofs.Template.BlockTags
import RawHtmlLint.Proofs.Template.Pairing
import RawHtmlLint.Proofs.Template.EachStart
import RawHtmlLint.Proofs.Script.Placement
import RawHtmlLint.Proofs.Template.Dealing
import RawHtmlLint.Proofs.Template.TagNodes
import RawHtmlLint.Proofs.Template.TagOrder
import RawHtmlLint.Proofs.Template.Visits
import RawHtmlLint.Proofs.Template.RuleNames
import RawHtmlLint.Proofs.Rule.Barrier
import RawHtmlLint.Proofs.Template.AttributeGroups
import RawHtmlLint.Proofs.Template.Dump
import RawHtmlLint.Proofs.Grammar.Requests
import RawHtmlLint.Proofs.Log
import RawHtmlLint.Proofs.Grammar.Preorder
import RawHtmlLint.Proofs.Template.Parts
import RawHtmlLint.Proofs.Rule.Symmetry
import RawHtmlLint.Proofs.Template.Flaws
