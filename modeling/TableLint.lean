import TableLint.CommandLine.Run
import TableLint.Main
import TableLint.Proofs.Cutting
import TableLint.Proofs.ReferenceGrammar
import TableLint.Proofs.FailingLine
import TableLint.Proofs.ReviewedName
import TableLint.Proofs.Findings
import TableLint.Proofs.Suppression
import TableLint.Proofs.ModuleBlocks
import TableLint.Proofs.Lines
import TableLint.Proofs.Reading
import TableLint.Proofs.KeyStructure
import TableLint.Proofs.Growth
import TableLint.Proofs.OptionList
import TableLint.Proofs.BelowReference
import TableLint.Proofs.ReferenceWording
import TableLint.Proofs.PermittedFilepath
import TableLint.Proofs.CanonicalReport
import TableLint.Proofs.ReportingOptions
import TableLint.Proofs.Relocation
import TableLint.Proofs.JudgementShape
import TableLint.Proofs.LiteralSpelling
import TableLint.Proofs.KeyLines
import TableLint.Proofs.NullableKey
import TableLint.Proofs.ConfiguredRoot
import TableLint.Proofs.NullableModes
import TableLint.Proofs.FilepathMark
import TableLint.Proofs.MentioningLines
import TableLint.Proofs.ReferenceLines
import TableLint.Proofs.AttributeSpelling
import TableLint.Proofs.CompiledAttributes
import TableLint.Proofs.SilentDefinitions
import TableLint.Proofs.Layout
import TableLint.Proofs.ProjectionArguments
import TableLint.Proofs.TypeCategories
import TableLint.Proofs.WellFormedLiteral
import TableLint.Proofs.DirectiveGrammar
import TableLint.Proofs.SettingsOrigin
import TableLint.Proofs.Blocks
import TableLint.Proofs.ExpressionEnds
import TableLint.Proofs.KeptBackslashes
import TableLint.Proofs.Places
import TableLint.Proofs.QuotedItems
import TableLint.Proofs.TokenPlaces
import TableLint.Proofs.StatementEnds
import TableLint.Proofs.LineShapes
import TableLint.Proofs.OutlineOrder
import TableLint.Proofs.WrittenStatements
