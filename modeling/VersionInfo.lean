import VersionInfo.CommandLine.Answer
import VersionInfo.CommandLine.Arguments
import VersionInfo.Decimal.Binary64
import VersionInfo.Decimal.Shortest
import VersionInfo.Dialect.Basic
import VersionInfo.Dialect.Line
import VersionInfo.Dialect.Literal
import VersionInfo.Digest.Sha256
import VersionInfo.Error
import VersionInfo.Field.Basic
import VersionInfo.Field.Raw
import VersionInfo.Instant.Basic
import VersionInfo.Instant.Calendar
import VersionInfo.Json.Error
import VersionInfo.Json.Number
import VersionInfo.Json.Reading
import VersionInfo.Json.Skip
import VersionInfo.Json.StringText
import VersionInfo.Json.Structure
import VersionInfo.Json.Typed
import VersionInfo.Json.Value
import VersionInfo.Language
import VersionInfo.Main
import VersionInfo.Manifest
import VersionInfo.Members
import VersionInfo.NameMap
import VersionInfo.Proofs.Dialect.LiteralReading
import VersionInfo.Proofs.Dialect.MemberReading
import VersionInfo.Proofs.Json.Canonical
import VersionInfo.Proofs.Json.Number
import VersionInfo.Proofs.Json.Run
import VersionInfo.Proofs.Json.StringText
import VersionInfo.Proofs.Json.Structure
import VersionInfo.Proofs.Json.Typed
import VersionInfo.Proofs.Members.Checks
import VersionInfo.Proofs.Members.Emitted
import VersionInfo.Proofs.NameMap
import VersionInfo.Proofs.Record.RoundTrip
import VersionInfo.Proofs.Source.Lines
import VersionInfo.Proofs.Source.Readability
import VersionInfo.Record.Basic
import VersionInfo.Record.Json
import VersionInfo.Source
import VersionInfo.Text.Blank
import VersionInfo.Text.Case
import VersionInfo.Text.CodePoints
import VersionInfo.Text.Extending
import VersionInfo.Text.Hexadecimal
import VersionInfo.Text.Integer
import VersionInfo.Text.Quoted
import VersionInfo.Text.Unprintable
import VersionInfo.Proofs.Json.Inside
import VersionInfo.Proofs.Source.Suppression
import VersionInfo.Proofs.Json.Sameness
import VersionInfo.Proofs.Json.Compact
import VersionInfo.Proofs.Json.ValueReading
import VersionInfo.Proofs.Json.CanonicalText
import VersionInfo.Proofs.Manifest.RoundTrip
import VersionInfo.Proofs.CommandLine.Generate
import VersionInfo.Proofs.Json.Acceptance
import VersionInfo.Proofs.Json.Fields
import VersionInfo.Proofs.Record.Reading
import VersionInfo.Proofs.Dialect.Conditionals
import VersionInfo.Proofs.Members.Identifiers
import VersionInfo.Proofs.Source.FieldOrder
import VersionInfo.Proofs.Source.Guards
import VersionInfo.Proofs.Source.AddedField
import VersionInfo.Proofs.Instant.Ticks
import VersionInfo.Proofs.Dialect.Unbroken
import VersionInfo.Proofs.Source.Carrying
import VersionInfo.Proofs.Source.Namespaces
import VersionInfo.Proofs.Instant.Order
import VersionInfo.Proofs.Text.Numeral
import VersionInfo.Proofs.Text.Strip
import VersionInfo.Proofs.Field.Values
import VersionInfo.Proofs.Field.Metadata
import VersionInfo.Proofs.CommandLine.Spelling
import VersionInfo.Proofs.Digest.Standard
import VersionInfo.Proofs.Digest.Sha256
