import Timesheet.Database.Edit
import Timesheet.Main
import Timesheet.Store.Memory
import Timesheet.Proofs.Program
import Timesheet.Proofs.Contract
import Timesheet.Proofs.Calendar
import Timesheet.Proofs.Digits
import Timesheet.Proofs.Instant
import Timesheet.Proofs.Codec
import Timesheet.Proofs.Effect
import Timesheet.Proofs.Handling
import Timesheet.Proofs.Holding
import Timesheet.Proofs.Outcome
import Timesheet.Proofs.Pairing
import Timesheet.Proofs.Bookkeeping
import Timesheet.Proofs.Readable
import Timesheet.Proofs.Totals
import Timesheet.Proofs.Agreement
import Timesheet.Proofs.Atomic
import Timesheet.Proofs.Range
import Timesheet.Proofs.Resending
import Timesheet.Proofs.SingleTimer
import Timesheet.Proofs.Recount
import Timesheet.Proofs.Switch
import Timesheet.Proofs.Table
import Timesheet.Proofs.Ending
import Timesheet.Proofs.Listing
import Timesheet.Proofs.Bounds
import Timesheet.Proofs.Ledger
import Timesheet.Proofs.Frame
import Timesheet.Proofs.Insertion
import Timesheet.Proofs.Malformed
import Timesheet.Proofs.Paging
import Timesheet.Proofs.Settling
import Timesheet.Proofs.Books
import Timesheet.Proofs.Reordering
import Timesheet.Proofs.Rereading
import Timesheet.Proofs.Decoding
import Timesheet.Proofs.Sharing
import Timesheet.Proofs.Rivals
import Timesheet.Proofs.Patching
import Timesheet.Proofs.Admission
import Timesheet.Proofs.Dates
import Timesheet.Proofs.Advancing
import Timesheet.Proofs.Stages
import Timesheet.Proofs.Overwriting
import Timesheet.Proofs.Stopping
import Timesheet.Proofs.Refreshing
import Timesheet.Proofs.Syncing
import Timesheet.Proofs.Accounts
import Timesheet.Proofs.Healing
import Timesheet.Proofs.Ranking
import Timesheet.Proofs.Tagging
import Timesheet.Proofs.Moments
import Timesheet.Proofs.Lines
import Timesheet.Proofs.Canonical
import Timesheet.Proofs.Fitting
import Timesheet.Proofs.Items
import Timesheet.Proofs.Reporting
