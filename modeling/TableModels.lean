import TableModels.AuditCalls.DisabledCall
import TableModels.Column.Reading
import TableModels.Command.Outcome
import TableModels.Conversion.Pipeline
import TableModels.Document.Repair
import TableModels.Json.ReportRecord
import TableModels.Main
import TableModels.Settings
import TableModels.Source.TableReading
import TableModels.Proofs.Column.Nesting
import TableModels.Proofs.Column.TypeArguments
import TableModels.Proofs.Column.Listing
import TableModels.Proofs.Column.Denotation
import TableModels.Proofs.Column.Grammar
import TableModels.Proofs.Column.Acceptance
import TableModels.Proofs.Column.Lexing
import TableModels.Proofs.Column.Printing
import TableModels.Proofs.Column.RoundTrip
import TableModels.Proofs.Column.Numerals
import TableModels.Proofs.Enumeration.Registration
import TableModels.Proofs.Mapping.FieldRequests
import TableModels.Proofs.Conversion.Run
import TableModels.Proofs.Conversion.DeclarationNames
import TableModels.Proofs.Document.QuotedText
import TableModels.Proofs.Index.Calls
import TableModels.Proofs.Index.Declarations
import TableModels.Proofs.Conversion.TableOrder
import TableModels.Proofs.Conversion.EnumReferences
import TableModels.Proofs.Enumeration.Calls
import TableModels.Proofs.Column.Squashing
import TableModels.Proofs.Conversion.Accounting
import TableModels.Proofs.Conversion.FlatLines
import TableModels.Proofs.Document.UniqueReading
import TableModels.Proofs.Document.LegacyBraces
import TableModels.Proofs.Files.FileEffects
import TableModels.Proofs.Files.ScriptRuns
import TableModels.Proofs.Command.ConversionEffects
import TableModels.Proofs.Command.SourceDocument
import TableModels.Proofs.Conversion.ExcludedTables
import TableModels.Proofs.Files.PathPlaces
import TableModels.Proofs.Files.ChangedPaths
import TableModels.Proofs.Command.Switches
import TableModels.Proofs.Command.PartialOutput
import TableModels.Proofs.Source.TableSites
import TableModels.Proofs.Source.TableNames
import TableModels.Proofs.Script.LineFeeds
import TableModels.Proofs.Script.TrailingComment
import TableModels.Proofs.Script.Reading
import TableModels.Proofs.Script.StringLiterals
import TableModels.Proofs.Source.Comments
import TableModels.Proofs.Conversion.AuditInjection
import TableModels.Proofs.Files.NewDirectories
import TableModels.Proofs.Command.DryRuns
import TableModels.Proofs.Conversion.BareNames
import TableModels.Proofs.Json.ReadingBack
import TableModels.Proofs.Naming.PlainWords
import TableModels.Proofs.Model.FieldSteps
import TableModels.Proofs.Mapping.PrimaryKeys
import TableModels.Proofs.Mapping.ColumnSlots
import TableModels.Proofs.Mapping.FieldAttributes
import TableModels.Proofs.Mapping.ChainOrder
import TableModels.Proofs.Mapping.EffectiveColumns
import TableModels.Proofs.Mapping.NumericConstraints
import TableModels.Proofs.Model.FieldInjection
import TableModels.Proofs.Text.Splitting
import TableModels.Proofs.Text.Matches
import TableModels.Proofs.Document.RepairRuns
import TableModels.Proofs.Index.WholeDescriptors
import TableModels.Proofs.AuditCalls.Restoration
import TableModels.Proofs.Document.MemberLines
import TableModels.Proofs.Files.SiblingPaths
import TableModels.Proofs.Files.AtomicWrites
import TableModels.Proofs.Command.RestoredFiles
import TableModels.Proofs.Column.ErrorPlaces
import TableModels.Proofs.Model.EscapedStrings
import TableModels.Proofs.Naming.CanonicalNames
