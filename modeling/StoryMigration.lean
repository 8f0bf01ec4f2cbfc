import StoryMigration.Main
import StoryMigration.Migration.Override
import StoryMigration.Migration.Calls
import StoryMigration.Proofs.ConvertedText
import StoryMigration.Proofs.ParameterUnion
import StoryMigration.Proofs.BindingUse
import StoryMigration.Proofs.GeneratedCode
import StoryMigration.Proofs.RemovedImport
import StoryMigration.Proofs.FragmentLinks
import StoryMigration.Proofs.ChainContent
import StoryMigration.Proofs.ExportedContent
import StoryMigration.Proofs.ExportNames
import StoryMigration.Proofs.FreshNames
import StoryMigration.Proofs.StoryIdentifiers
import StoryMigration.Proofs.FilePlaces
import StoryMigration.Proofs.MigratedFile
import StoryMigration.Proofs.JoinedStatements
import StoryMigration.Proofs.BackupBytes
import StoryMigration.Batch.Workers
import StoryMigration.Proofs.FileTargets
import StoryMigration.Proofs.LocalSteps
import StoryMigration.Proofs.WorkerRuns
import StoryMigration.Proofs.NodeStart
import StoryMigration.Proofs.StatementStart
import StoryMigration.Proofs.WordReading
import StoryMigration.Proofs.ExpressionEnd
import StoryMigration.Proofs.DefaultExport
import StoryMigration.Proofs.ReadStatements
import StoryMigration.Proofs.SecondConversion
import StoryMigration.Proofs.LiteralReading
import StoryMigration.Proofs.ValueReading
import StoryMigration.Proofs.TokenText
import StoryMigration.Proofs.NodeLayout
import StoryMigration.Proofs.LaidReading
import StoryMigration.Proofs.LaidParameter
import StoryMigration.Proofs.LaidType
import StoryMigration.Proofs.LaidExpression
import StoryMigration.Proofs.LaidElement
import StoryMigration.Proofs.LaidStatement
import StoryMigration.Proofs.TreeLayout
import StoryMigration.Proofs.ModuleLayout
import StoryMigration.Proofs.ReadLiterals
import StoryMigration.Proofs.ConversionFailures
import StoryMigration.Proofs.EntryPoints
import StoryMigration.Proofs.Snippets
import StoryMigration.Proofs.IdentifierWords
import StoryMigration.Proofs.ConvertedEndings
import StoryMigration.Proofs.EditOrder
import StoryMigration.Proofs.OutcomeKinds
import StoryMigration.Proofs.LocatedFragments
import StoryMigration.Proofs.TrialRun
import StoryMigration.Proofs.WrittenBytes
import StoryMigration.Proofs.EmittedCode
import StoryMigration.Proofs.GeneratedLiterals
import StoryMigration.Proofs.ExportedComments
import StoryMigration.Proofs.ArgumentComments
import StoryMigration.Proofs.MovedLines
import StoryMigration.Proofs.MovedLiterals
import StoryMigration.Proofs.MovedElementText
import StoryMigration.Proofs.ImportBindings
import StoryMigration.Proofs.RuntimeExports
import StoryMigration.Proofs.GeneratedSnippets
import StoryMigration.Proofs.SnippetCharacters
import StoryMigration.Proofs.SnippetReading
import StoryMigration.Proofs.FreeNames
import StoryMigration.Proofs.SnippetStatements
import StoryMigration.Proofs.MemberAssignment
import StoryMigration.Proofs.GeneratedStatements
import StoryMigration.Proofs.SnippetEnds
import StoryMigration.Proofs.PlacedStatements
import StoryMigration.Proofs.ClaimedNames
import StoryMigration.Proofs.MergedOnce
import StoryMigration.Proofs.RecoveredNames
import StoryMigration.Proofs.LegalIdentifiers
import StoryMigration.Proofs.StatementSpans
import StoryMigration.Proofs.LineFilter
import StoryMigration.Proofs.FormatterRuns
import StoryMigration.Proofs.UnifiedDiff
import StoryMigration.Proofs.StackTraversal
import StoryMigration.Proofs.WordSearch
import StoryMigration.Proofs.BoundNames
import StoryMigration.Proofs.ExpandedPaths
