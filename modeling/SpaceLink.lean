import SpaceLink.Bytes
import SpaceLink.Catalog
import SpaceLink.Ccsds.Definition
import SpaceLink.Ccsds.Header
import SpaceLink.Command.Basic
import SpaceLink.Command.Definition
import SpaceLink.DataType.Basic
import SpaceLink.DataType.CodeBook
import SpaceLink.DataType.Primitive
import SpaceLink.DataType.Registry
import SpaceLink.DataType.TimeCode
import SpaceLink.Event.Dictionary
import SpaceLink.Event.Directive
import SpaceLink.Event.Message
import SpaceLink.Expr.Arithmetic
import SpaceLink.Expr.Conversion
import SpaceLink.Expr.Eval
import SpaceLink.Expr.Function
import SpaceLink.Expr.FunctionTable
import SpaceLink.Expr.Lexer
import SpaceLink.Expr.Parser
import SpaceLink.Expr.Syntax
import SpaceLink.Expr.Token
import SpaceLink.Fault
import SpaceLink.Field.Basic
import SpaceLink.Field.Enumeration
import SpaceLink.Field.Layout
import SpaceLink.Field.Position
import SpaceLink.Json.Basic
import SpaceLink.Json.Document
import SpaceLink.Json.Printer
import SpaceLink.Json.Reader
import SpaceLink.Number.Binary64
import SpaceLink.Number.Layout
import SpaceLink.Number.Numeral
import SpaceLink.Number.Places
import SpaceLink.Number.Power
import SpaceLink.Number.Reader
import SpaceLink.Number.Rounding
import SpaceLink.Number.Shortest
import SpaceLink.Number.Wide
import SpaceLink.Packet.Basic
import SpaceLink.Packet.Csv
import SpaceLink.Packet.Definition
import SpaceLink.Packet.History
import SpaceLink.Proofs.Attempt
import SpaceLink.Proofs.Binding
import SpaceLink.Proofs.Bits
import SpaceLink.Proofs.Catalog
import SpaceLink.Proofs.Ccsds.Concatenation
import SpaceLink.Proofs.Ccsds.Definition
import SpaceLink.Proofs.CodeBook
import SpaceLink.Proofs.Command.Definition
import SpaceLink.Proofs.Command.Encoding
import SpaceLink.Proofs.Command.RoundTrip
import SpaceLink.Proofs.Command.Shortage
import SpaceLink.Proofs.Command.Spoken
import SpaceLink.Proofs.Command.Supplying
import SpaceLink.Proofs.Command.Validation
import SpaceLink.Proofs.DataType.Asking
import SpaceLink.Proofs.DataType.Cut
import SpaceLink.Proofs.DataType.Elements
import SpaceLink.Proofs.DataType.Grammar
import SpaceLink.Proofs.DataType.Integer
import SpaceLink.Proofs.DataType.Items
import SpaceLink.Proofs.DataType.Named
import SpaceLink.Proofs.DataType.Order
import SpaceLink.Proofs.DataType.Reading
import SpaceLink.Proofs.DataType.Registering
import SpaceLink.Proofs.DataType.Resolution
import SpaceLink.Proofs.DataType.Shortage
import SpaceLink.Proofs.DataType.Text
import SpaceLink.Proofs.DataType.Time
import SpaceLink.Proofs.DataType.Width
import SpaceLink.Proofs.Dictionaries
import SpaceLink.Proofs.DictionaryMaps
import SpaceLink.Proofs.Event.Integers
import SpaceLink.Proofs.Event.Message
import SpaceLink.Proofs.Event.Spelling
import SpaceLink.Proofs.Expr.Chain
import SpaceLink.Proofs.Expr.Comparison
import SpaceLink.Proofs.Expr.Completion
import SpaceLink.Proofs.Expr.Mention
import SpaceLink.Proofs.Expr.Offending
import SpaceLink.Proofs.Expr.Placement
import SpaceLink.Proofs.Expr.Reading
import SpaceLink.Proofs.Expr.Settled
import SpaceLink.Proofs.Expr.Shifts
import SpaceLink.Proofs.Expr.Source
import SpaceLink.Proofs.Expr.Spelling
import SpaceLink.Proofs.Expr.Substitution
import SpaceLink.Proofs.Expr.Unknown
import SpaceLink.Proofs.Expr.Words
import SpaceLink.Proofs.Expr.Written
import SpaceLink.Proofs.Field.Check
import SpaceLink.Proofs.Field.Enumerated
import SpaceLink.Proofs.Field.Footprint
import SpaceLink.Proofs.Field.Frame
import SpaceLink.Proofs.Field.Kept
import SpaceLink.Proofs.Field.Layout
import SpaceLink.Proofs.Field.Lens
import SpaceLink.Proofs.Field.Mask
import SpaceLink.Proofs.Field.Names
import SpaceLink.Proofs.Field.Pairs
import SpaceLink.Proofs.Field.Raised
import SpaceLink.Proofs.Field.Run
import SpaceLink.Proofs.Field.Shortage
import SpaceLink.Proofs.Field.Slice
import SpaceLink.Proofs.Field.Splice
import SpaceLink.Proofs.Field.Succession
import SpaceLink.Proofs.Field.Validation
import SpaceLink.Proofs.Field.Write
import SpaceLink.Proofs.Number.Digits
import SpaceLink.Proofs.Number.Parts
import SpaceLink.Proofs.Number.Wide
import SpaceLink.Proofs.Packet.Bounds
import SpaceLink.Proofs.Packet.Commuting
import SpaceLink.Proofs.Packet.Csv
import SpaceLink.Proofs.Packet.Definition
import SpaceLink.Proofs.Packet.Depth
import SpaceLink.Proofs.Packet.Derivation
import SpaceLink.Proofs.Packet.Elements
import SpaceLink.Proofs.Packet.History
import SpaceLink.Proofs.Packet.Levels
import SpaceLink.Proofs.Packet.Naming
import SpaceLink.Proofs.Packet.Reach
import SpaceLink.Proofs.Schema.Asking
import SpaceLink.Proofs.Table.Bounds
import SpaceLink.Proofs.Table.Cell
import SpaceLink.Proofs.Table.Decoding
import SpaceLink.Proofs.Table.Literal
import SpaceLink.Proofs.Table.RoundTrip
import SpaceLink.Proofs.Table.Times
import SpaceLink.Proofs.Table.Words
import SpaceLink.Proofs.Text.Ascii
import SpaceLink.Proofs.Text.Blank
import SpaceLink.Proofs.Text.Joining
import SpaceLink.Proofs.Text.Utf8
import SpaceLink.Proofs.Time.Calendar
import SpaceLink.Proofs.Time.Rfc3339
import SpaceLink.Proofs.Validation
import SpaceLink.Proofs.Value.Order
import SpaceLink.Schema.Builder
import SpaceLink.Schema.Entry
import SpaceLink.Schema.FieldBuilder
import SpaceLink.Schema.Record
import SpaceLink.Table.Basic
import SpaceLink.Table.Cell
import SpaceLink.Table.Definition
import SpaceLink.Text.Blank
import SpaceLink.Text.CodeSet
import SpaceLink.Text.Letter
import SpaceLink.Text.Pieces
import SpaceLink.Text.Quoted
import SpaceLink.Text.Utf8
import SpaceLink.Text.Visible
import SpaceLink.Time.Calendar
import SpaceLink.Time.Instant
import SpaceLink.Time.Rfc3339
import SpaceLink.Value
import SpaceLink.Value.Printer
import SpaceLink.Value.Reader
import SpaceLink.Verdict
