import SqlRecovery.Json.Codec
import SqlRecovery.Stream.Site
import SqlRecovery.Stream.Storage
import SqlRecovery.Viewer.Basic
import SqlRecovery.Viewer.Block
import SqlRecovery.Proofs.Journal
import SqlRecovery.Proofs.Pairing.Step
import SqlRecovery.Proofs.Text.Utf8
import SqlRecovery.Proofs.Marker.Trailing
import SqlRecovery.Proofs.Stream.Delivery
import SqlRecovery.Proofs.Stream.Chunking
import SqlRecovery.Proofs.Stream.Polling
import SqlRecovery.Proofs.Pairing.History
import SqlRecovery.Proofs.Pairing.Completion
import SqlRecovery.Proofs.Journal.Fault
import SqlRecovery.Proofs.Pairing.Guard
import SqlRecovery.Proofs.Text.Ascii
import SqlRecovery.Proofs.Text.Folding
import SqlRecovery.Proofs.Text.Occurrence
import SqlRecovery.Proofs.Marker.Matching
import SqlRecovery.Proofs.Marker.Grammar
import SqlRecovery.Proofs.Marker.Printed
import SqlRecovery.Proofs.Stream.Transcript
import SqlRecovery.Proofs.Text.Collapse
import SqlRecovery.Proofs.Sql.Keys
import SqlRecovery.Proofs.Sql.Spelling
import SqlRecovery.Proofs.Sql.Place
import SqlRecovery.Proofs.Sql.Hit
import SqlRecovery.Proofs.Sql.Search
import SqlRecovery.Proofs.Sql.Cursor
import SqlRecovery.Proofs.Sql.Chunk
import SqlRecovery.Proofs.Sql.Laid
import SqlRecovery.Proofs.Sql.Shown
import SqlRecovery.Proofs.Sql.Slice
import SqlRecovery.Proofs.Sql.Layout.Clause
import SqlRecovery.Proofs.Sql.Layout.Hanging
import SqlRecovery.Proofs.Sql.Layout.Update
import SqlRecovery.Proofs.Sql.Layout.Insertion
import SqlRecovery.Proofs.Sql.Layout.Query
import SqlRecovery.Proofs.Sql.Idempotence
import SqlRecovery.Proofs.Sql.Tokens
import SqlRecovery.Proofs.Parameter.RoundTrip
import SqlRecovery.Proofs.Stream.Growing
import SqlRecovery.Proofs.Stream.Rotation
import SqlRecovery.Proofs.Stream.FailingSink
import SqlRecovery.Proofs.Stream.Rereading
import SqlRecovery.Proofs.Viewer.Transcript
import SqlRecovery.Proofs.Sql.Layout.Verbatim
import SqlRecovery.Proofs.Sql.Mention
import SqlRecovery.Proofs.Sql.Recall
import SqlRecovery.Proofs.Sql.Clauses
import SqlRecovery.Proofs.Sql.Layout.Rows
import SqlRecovery.Proofs.Sql.Layout.Selection
import SqlRecovery.Proofs.Marker.SeverityTail
import SqlRecovery.Proofs.Sql.Layout.Change
import SqlRecovery.Proofs.Sql.Layout.Records
import SqlRecovery.Proofs.Sql.Layout.Bracketing
import SqlRecovery.Proofs.Number.Numeral
import SqlRecovery.Proofs.Parameter.Dispatch
import SqlRecovery.Proofs.Parameter.Suffix
import SqlRecovery.Proofs.Parameter.WholeNumber
import SqlRecovery.Proofs.Viewer.Nesting
import SqlRecovery.Proofs.Viewer.Reentry
import SqlRecovery.Proofs.Parameter.Placeholder
import SqlRecovery.Proofs.Text.Parting
import SqlRecovery.Proofs.Parameter.Pieces
import SqlRecovery.Proofs.Stream.Reading
import SqlRecovery.Proofs.Pairing.Accounting
import SqlRecovery.Proofs.Sql.Earliest
import SqlRecovery.Proofs.Pairing.Representation
import SqlRecovery.Proofs.Text.Replacement
import SqlRecovery.Proofs.Stream.Handing
import SqlRecovery.Proofs.Json.Text
import SqlRecovery.Proofs.Json.RoundTrip
import SqlRecovery.Proofs.Bytewise.Access
import SqlRecovery.Proofs.Bytewise.Nesting
import SqlRecovery.Proofs.Bytewise.Places
import SqlRecovery.Proofs.Sql.Rescan
import SqlRecovery.Proofs.Bytewise.Search
import SqlRecovery.Proofs.Bytewise.Clause
import SqlRecovery.Proofs.Bytewise.Lists
import SqlRecovery.Proofs.Bytewise.Layout
import SqlRecovery.Proofs.Bytewise.Parameter
import SqlRecovery.Proofs.Bytewise.Statement
