import TypedColumns.Codec.Irregular
import TypedColumns.Column.Text
import TypedColumns.Handle.Text
import TypedColumns.Session
import TypedColumns.Proofs.Handle.History
import TypedColumns.Proofs.Handle.Lifecycle
import TypedColumns.Proofs.Arena.Accounts
import TypedColumns.Proofs.Arena.Sharing
import TypedColumns.Proofs.Session.Balance
import TypedColumns.Proofs.Session.Operations
import TypedColumns.Proofs.Session.Runs
import TypedColumns.Proofs.Column.Nested
import TypedColumns.Proofs.Builder.Finishing
import TypedColumns.Proofs.Codec.Keeping
import TypedColumns.Proofs.Codec.Lists
import TypedColumns.Proofs.Codec.Records
import TypedColumns.Proofs.Codec.Transforms
import TypedColumns.Proofs.Codec.Shipped
import TypedColumns.Proofs.Codec.Discerning
import TypedColumns.Proofs.Handle.Rows
import TypedColumns.Proofs.Builder.Finished
import TypedColumns.Proofs.Column.Compaction
import TypedColumns.Proofs.Column.Plain
import TypedColumns.Proofs.Column.Missing
import TypedColumns.Proofs.Column.WellFormed
import TypedColumns.Proofs.Stream.Buffers
import TypedColumns.Proofs.Stream.Columns
import TypedColumns.Proofs.FlatTable.Placed
import TypedColumns.Proofs.FlatTable.Writing
import TypedColumns.Proofs.FlatTable.Reading
import TypedColumns.Proofs.FlatTable.Looking
import TypedColumns.Proofs.Stream.Limits
import TypedColumns.Proofs.Stream.Described
import TypedColumns.Proofs.Stream.Fields
import TypedColumns.Proofs.Stream.Messages
import TypedColumns.Proofs.Stream.Framing
import TypedColumns.Proofs.Stream.RoundTrip
import TypedColumns.Proofs.Cell.RoundTrip
import TypedColumns.Proofs.Handle.Columns
import TypedColumns.Proofs.Cell.Wrapping
import TypedColumns.Proofs.Rows.Items
import TypedColumns.Proofs.Rows.Writing
import TypedColumns.Proofs.Rows.Complete
import TypedColumns.Proofs.Rows.Finishing
import TypedColumns.Proofs.Arena.Room
import TypedColumns.Proofs.Encoder.Outcomes
import TypedColumns.Proofs.Cell.Outcomes
import TypedColumns.Proofs.Builder.Broken
import TypedColumns.Proofs.Codec.Lawful
import TypedColumns.Proofs.Builder.Selecting
import TypedColumns.Proofs.Codec.Calls
import TypedColumns.Proofs.Builder.Failing
import TypedColumns.Proofs.Stream.Cutting
import TypedColumns.Proofs.Cell.Cutting
import TypedColumns.Proofs.Codec.Feeding
import TypedColumns.Proofs.Handle.Feeding
import TypedColumns.Proofs.Codec.Delegation
import TypedColumns.Proofs.Handle.Delegation
import TypedColumns.Proofs.Arena.Alike
import TypedColumns.Proofs.Session.Slices
import TypedColumns.Proofs.Session.Answers
import TypedColumns.Proofs.Session.Interleaving
import TypedColumns.Proofs.Session.Isolation
import TypedColumns.Proofs.Builder.Refusals
import TypedColumns.Proofs.Builder.Uneven
import TypedColumns.Proofs.Handle.Roomless
import TypedColumns.Proofs.Builder.Payload
import TypedColumns.Proofs.Codec.Payload
import TypedColumns.Proofs.Handle.Payload
import TypedColumns.Proofs.Codec.Trees
import TypedColumns.Proofs.Builder.Renewal
import TypedColumns.Proofs.Column.Extending
import TypedColumns.Proofs.Builder.Growing
