import RecordLayer.Failure.Response
import RecordLayer.Main
import RecordLayer.Proofs.Attribution
import RecordLayer.Proofs.Clients
import RecordLayer.Proofs.Inserting
import RecordLayer.Proofs.Instant.Forms
import RecordLayer.Proofs.Migration.History
import RecordLayer.Proofs.Migration.Listing
import RecordLayer.Proofs.Migration.Prediction
import RecordLayer.Proofs.Migration.Restoring
import RecordLayer.Proofs.Migration.Reverting
import RecordLayer.Proofs.Misattribution
import RecordLayer.Proofs.Refusal
import RecordLayer.Proofs.Replaying
import RecordLayer.Proofs.Retry
import RecordLayer.Proofs.RoundTrip
import RecordLayer.Proofs.Rule.Comparison
import RecordLayer.Proofs.Rule.Email
import RecordLayer.Proofs.Sql.Compound
import RecordLayer.Proofs.Sql.Division
import RecordLayer.Proofs.Sql.Margin
import RecordLayer.Proofs.Sql.Preview
import RecordLayer.Proofs.Sql.Reassembly
import RecordLayer.Proofs.Sql.Scanning
import RecordLayer.Proofs.Sql.Settled
import RecordLayer.Proofs.Url.File
import RecordLayer.Record.Document
import RecordLayer.Rule.Extra
import RecordLayer.Scripted
