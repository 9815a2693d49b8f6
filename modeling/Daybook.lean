import Daybook.Main
import Daybook.Proofs.Command.Running
import Daybook.Proofs.Date.MonthFiles
import Daybook.Proofs.Disk.DirectoryFiles
import Daybook.Proofs.Disk.Rollback
import Daybook.Proofs.Disk.Tracking
import Daybook.Proofs.Editing.AccountAddition
import Daybook.Proofs.Editing.AccountDeletion
import Daybook.Proofs.Editing.Commuting
import Daybook.Proofs.Editing.Deletion
import Daybook.Proofs.Editing.EntryAddition
import Daybook.Proofs.Editing.Flagging
import Daybook.Proofs.Editing.Inclusion
import Daybook.Proofs.Editing.LineCuts
import Daybook.Proofs.Editing.RootFile
import Daybook.Proofs.Entry.Rendering
import Daybook.Proofs.Entry.Returning
import Daybook.Proofs.Grammar.Parsing
import Daybook.Proofs.Ledger.AccountRoll
import Daybook.Proofs.Ledger.Bookkeeping
import Daybook.Proofs.Ledger.Confinement
import Daybook.Proofs.Ledger.Guards
import Daybook.Proofs.Ledger.HalfDone
import Daybook.Proofs.Ledger.Ids
import Daybook.Proofs.Ledger.Sheets
import Daybook.Proofs.Ledger.TransactionList
import Daybook.Proofs.Ledger.TransactionStore
import Daybook.Proofs.Ledger.VerificationWalk
import Daybook.Proofs.Ledger.VerifiedBooks
import Daybook.Proofs.Lexeme.Quotations
import Daybook.Proofs.Statement.PostingFields
import Daybook.Value.Written
