import TableSchema.Unicode.Blank
import TableSchema.Unicode.Case
import TableSchema.Unicode.WordPart
import TableSchema.Text.Position
import TableSchema.Text.Words
import TableSchema.Scan.Group
import TableSchema.Constraint
import TableSchema.Dialect
import TableSchema.CommandLine.Files
import TableSchema.Conversion
import TableSchema.Document
import TableSchema.Main
import TableSchema.Proofs.Checked
import TableSchema.Proofs.Comments
import TableSchema.Proofs.Continuation
import TableSchema.Proofs.Grammar
import TableSchema.Proofs.Items
import TableSchema.Proofs.LetterCase.Table
import TableSchema.Proofs.Rendering
import TableSchema.Session
import TableSchema.Table
import TableSchema.Proofs.ColumnMapLaws
import TableSchema.Proofs.Invariants
import TableSchema.Proofs.DialectChange
import TableSchema.Proofs.RenderedNames
import TableSchema.Proofs.CommandLine.Files
import TableSchema.Proofs.CommandLine
import TableSchema.Proofs.CommandLine.Independence
import TableSchema.Proofs.Attributes
import TableSchema.Proofs.Declarations
import TableSchema.Proofs.ColumnLog
import TableSchema.Proofs.Failures
import TableSchema.Proofs.Descriptions
import TableSchema.Proofs.ConstraintText
import TableSchema.Proofs.DialectTypes
import TableSchema.Proofs.ArrayFields
import TableSchema.Proofs.QuotedNames
import TableSchema.Proofs.Casts
import TableSchema.Proofs.CaseMappings
import TableSchema.Proofs.ColumnLookup
import TableSchema.Proofs.FieldJson
import TableSchema.Proofs.SummaryLayout
import TableSchema.Proofs.Groups
