import SchemaTypes.Comparator.OfClassName
import SchemaTypes.CqlType.Printer
import SchemaTypes.Text.HexDump
import SchemaTypes.Text.ValueCodec
import SchemaTypes.Proofs.Text.HexDump
import SchemaTypes.Proofs.Text.Spelling
import SchemaTypes.Proofs.Text.Identifier
import SchemaTypes.Proofs.ClassName.Units
import SchemaTypes.Proofs.ClassName.Arguments
import SchemaTypes.Proofs.ClassName.Words
import SchemaTypes.Proofs.CqlType.Expr
import SchemaTypes.Proofs.ClassName.Reading
import SchemaTypes.Proofs.CqlType.RoundTrip
import SchemaTypes.Proofs.Comparator.RoundTrip
import SchemaTypes.Proofs.Comparator.Reversal
import SchemaTypes.Proofs.ClassName.Faults
import SchemaTypes.Proofs.Comparator.Faults
import SchemaTypes.Proofs.ClassName.Grammar
import SchemaTypes.Proofs.ClassName.Recognition
import SchemaTypes.Proofs.ClassName.LeadingName
import SchemaTypes.Proofs.ClassName.Extent
import SchemaTypes.Proofs.ClassName.Spacing
import SchemaTypes.Proofs.ClassName.Passing
import SchemaTypes.Proofs.CqlType.Spacing
import SchemaTypes.Proofs.Comparator.Spacing
import SchemaTypes.Proofs.CqlType.Readability
import SchemaTypes.Proofs.Comparator.Components
import SchemaTypes.Proofs.Comparator.Calls
import SchemaTypes.Proofs.Comparator.Sinks
import SchemaTypes.Proofs.Comparator.Reports
import SchemaTypes.Proofs.CqlType.Reports
import SchemaTypes.Proofs.Comparator.Directions
import SchemaTypes.Proofs.Comparator.Tuples
import SchemaTypes.Proofs.CqlType.Balance
import SchemaTypes.Proofs.Comparator.Balance
import SchemaTypes.Proofs.ClassName.Operations
import SchemaTypes.Proofs.Comparator.Causes
import SchemaTypes.Proofs.ClassName.NamedUnits
import SchemaTypes.Proofs.ClassName.Captures
import SchemaTypes.Proofs.CqlType.Shape
import SchemaTypes.Proofs.Comparator.Shape
import SchemaTypes.Proofs.CqlType.Kinds
import SchemaTypes.Proofs.ClassName.Records
import SchemaTypes.Proofs.CqlType.Records
import SchemaTypes.Proofs.Comparator.Records
import SchemaTypes.Proofs.ClassName.Renaming
import SchemaTypes.Proofs.CqlType.Renaming
import SchemaTypes.Proofs.Comparator.Renaming
import SchemaTypes.Proofs.ClassName.Groups
import SchemaTypes.Proofs.ClassName.Separators
import SchemaTypes.Proofs.Comparator.Equality
import SchemaTypes.Proofs.Comparator.EmptyArguments
