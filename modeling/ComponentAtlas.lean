import ComponentAtlas.Command.Arguments
import ComponentAtlas.Command.LogFilter
import ComponentAtlas.Command.Run
import ComponentAtlas.Decimal.Reading
import ComponentAtlas.Decimal.Shortest
import ComponentAtlas.Diagnostic
import ComponentAtlas.Failure
import ComponentAtlas.FileTree
import ComponentAtlas.Generate.Descriptor
import ComponentAtlas.Generate.IgnoreList
import ComponentAtlas.Generate.Package
import ComponentAtlas.Generate.Run
import ComponentAtlas.Index
import ComponentAtlas.Json.Reader
import ComponentAtlas.Json.Value
import ComponentAtlas.Library
import ComponentAtlas.Main
import ComponentAtlas.Ordered
import ComponentAtlas.Outline.Declaration
import ComponentAtlas.Outline.DocComment
import ComponentAtlas.Outline.OfTree
import ComponentAtlas.Outline.Statement
import ComponentAtlas.Path
import ComponentAtlas.Proofs.EnumerationRules
import ComponentAtlas.Proofs.ExportList
import ComponentAtlas.Proofs.ExportMeaning
import ComponentAtlas.Proofs.FirstMatch
import ComponentAtlas.Proofs.HeritageGraph
import ComponentAtlas.Proofs.HopGraph
import ComponentAtlas.Proofs.Linking
import ComponentAtlas.Proofs.NamedHops
import ComponentAtlas.Proofs.SearchEnds
import ComponentAtlas.Proofs.SearchRules
import ComponentAtlas.Proofs.View
import ComponentAtlas.Proofs.WalkEnds
import ComponentAtlas.Report.Table
import ComponentAtlas.Resolve.Exports
import ComponentAtlas.Resolve.Lineage
import ComponentAtlas.Resolve.Lookup
import ComponentAtlas.Resolve.Provider
import ComponentAtlas.Resolve.Summary
import ComponentAtlas.Settings.Basic
import ComponentAtlas.Settings.Decode
import ComponentAtlas.Settings.Environment
import ComponentAtlas.Settings.Load
import ComponentAtlas.Settings.Setting
import ComponentAtlas.Source.Cursor
import ComponentAtlas.Source.Grammar.Expressions
import ComponentAtlas.Source.Grammar.Nonterminal
import ComponentAtlas.Source.Grammar.Statements
import ComponentAtlas.Source.Grammar.Types
import ComponentAtlas.Source.Kind
import ComponentAtlas.Source.Lexeme
import ComponentAtlas.Source.LineEnd
import ComponentAtlas.Source.Node
import ComponentAtlas.Source.Range
import ComponentAtlas.Source.Reader
import ComponentAtlas.Source.Rule
import ComponentAtlas.Source.Tree
import ComponentAtlas.Symbol
import ComponentAtlas.Text.Blank
import ComponentAtlas.Text.Quoted
import ComponentAtlas.Text.Width
import ComponentAtlas.Toml.Quoted
import ComponentAtlas.Toml.Reader
import ComponentAtlas.Toml.Scalar
import ComponentAtlas.Toml.Table
import ComponentAtlas.Toml.Value
import ComponentAtlas.Toml.Writer
import ComponentAtlas.Proofs.FileTour
import ComponentAtlas.Proofs.KindOrder
import ComponentAtlas.Proofs.LineageShape
import ComponentAtlas.Proofs.ExportOffers
import ComponentAtlas.Proofs.ExportTrace
import ComponentAtlas.Proofs.PathParts
import ComponentAtlas.Proofs.FilePlaces
import ComponentAtlas.Proofs.Lockstep
import ComponentAtlas.Proofs.LibraryMemo
import ComponentAtlas.Proofs.SteadyFiles
import ComponentAtlas.Proofs.GenerateSteps
import ComponentAtlas.Proofs.ReportAccount
import ComponentAtlas.Proofs.SearchWork
import ComponentAtlas.Proofs.PathSpelling
import ComponentAtlas.Proofs.PackageSpelling
import ComponentAtlas.Proofs.RunStages
import ComponentAtlas.Proofs.BoundedRuns
import ComponentAtlas.Proofs.OutputFiles
import ComponentAtlas.Proofs.Identifiers
import ComponentAtlas.Proofs.AddedFiles
import ComponentAtlas.Proofs.ClassTurns
import ComponentAtlas.Proofs.ProcessingOrder
import ComponentAtlas.Proofs.Forwarding
import ComponentAtlas.Proofs.NormalPaths
import ComponentAtlas.Proofs.LinkSteps
import ComponentAtlas.Proofs.JsonText
import ComponentAtlas.Proofs.DescriptorMirror
import ComponentAtlas.Proofs.LinearChain
import ComponentAtlas.Proofs.DocLayout
import ComponentAtlas.Proofs.StatementIndex
import ComponentAtlas.Proofs.RuleReads
import ComponentAtlas.Proofs.GrammarShapes
import ComponentAtlas.Proofs.HeritageEntries
import ComponentAtlas.Proofs.PartShapes
import ComponentAtlas.Proofs.CommentedTrees
import ComponentAtlas.Proofs.CommentedOutline
import ComponentAtlas.Proofs.NearestSettings
import ComponentAtlas.Proofs.ExportNames
import ComponentAtlas.Proofs.AttachedDocs
